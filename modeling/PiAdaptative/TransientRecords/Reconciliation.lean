import Mathlib.Data.List.Pairwise
import PiAdaptative.TransientRecords.Records

/-!
# Reconciliation of transient records

What a reconciliation appends makes the content of every slot current, and the next reconciliation
finds nothing to change.  It may still bring live trailing slots back to the end: a slot that has
just been cleared stood there for one turn and gives up its place.
-/

namespace PiAdaptative.TransientRecords

open TextProtocol (Text units)

/-- Whether a message is a full record of a kind. -/
def isRecordOf (kind : Text) (message : AgentMessage) : Bool :=
  decide (customKind message = some kind) && !isPointerRecord message

/-- The content of the last full record of a kind. -/
def currentContent (messages : List AgentMessage) (kind : Text) : Option Text :=
  (messages.filter (isRecordOf kind)).getLast?.bind durableTransientContent

variable (messages : List AgentMessage)

theorem get?_foldl_indexMessage (byKind : KindContents) (kind : Text) :
    (messages.foldl indexMessage byKind).get? kind =
      ((messages.filter (isRecordOf kind)).getLast?.map durableTransientContent).or
        (byKind.get? kind) := by
  induction messages using List.reverseRecOn with
  | nil => rfl
  | append_singleton messages message ih =>
      rw [List.foldl_append, List.filter_append]
      cases message with
      | other payload => simpa [indexMessage, isRecordOf, customKind] using ih
      | custom custom =>
          simp only [List.foldl_cons, List.foldl_nil, indexMessage, List.filter_cons,
            List.filter_nil, isRecordOf, customKind]
          by_cases pointer : isPointerRecord (.custom custom) = true
          · simpa [pointer] using ih
          · rw [if_neg pointer, OrderedMap.get?_set]
            by_cases same : kind = custom.customType
            · simp [same, pointer]
            · have other : ¬custom.customType = kind := fun equal => same equal.symm
              simpa [same, other] using ih

theorem join_get?_foldl_indexMessage (kind : Text) :
    ((messages.foldl indexMessage .empty).get? kind).join = currentContent messages kind := by
  rw [get?_foldl_indexMessage, OrderedMap.get?_empty, Option.or_none]
  unfold currentContent
  cases (messages.filter (isRecordOf kind)).getLast? <;> rfl

section

variable {ρ : Type} [DecidableEq ρ] {message : ρ → AgentMessage}

/-- Every index holds what its history says. -/
def Sound (message : ρ → AgentMessage) (indexes : TransientContentIndexes ρ) : Prop :=
  ∀ first index, indexes.get? first = some index → index.count = index.processed.length ∧
    index.byKind = (index.processed.map message).foldl indexMessage .empty

theorem sound_empty : Sound message OrderedMap.empty := fun _ _ found => by
  cases found

variable {indexes : TransientContentIndexes ρ}

theorem reusableIndex_sound (sound : Sound message indexes) (first : ρ) (messages : List ρ) :
    let index := reusableIndex indexes first messages
    index.count ≤ messages.length ∧ index.count = index.processed.length ∧
      index.processed = messages.take index.count ∧
      index.byKind = (index.processed.map message).foldl indexMessage .empty := by
  unfold reusableIndex
  cases found : indexes.get? first with
  | none => exact ⟨Nat.zero_le _, rfl, by simp, rfl⟩
  | some index =>
      obtain ⟨count, byKind⟩ := sound first index found
      dsimp only
      split
      · next fits =>
          refine ⟨fits.1, count, ?_, byKind⟩
          rw [← fits.2, count, List.take_length]
      · exact ⟨Nat.zero_le _, rfl, by simp, rfl⟩

theorem transientContentIndex_sound (sound : Sound message indexes) (messages : List ρ) :
    Sound message (transientContentIndex message indexes messages).1 ∧
      (transientContentIndex message indexes messages).2 =
        (messages.map message).foldl indexMessage .empty := by
  cases messages with
  | nil => exact ⟨sound, rfl⟩
  | cons first rest =>
      obtain ⟨bound, count, processed, byKind⟩ := reusableIndex_sound sound first (first :: rest)
      simp only [transientContentIndex]
      generalize reusableIndex indexes first (first :: rest) = index at bound count processed byKind ⊢
      have whole : ((first :: rest).drop index.count).foldl
          (fun byKind reference => indexMessage byKind (message reference)) index.byKind =
            ((first :: rest).map message).foldl indexMessage .empty := by
        rw [byKind, processed, ← List.foldl_map, ← List.foldl_append, ← List.map_append,
          List.take_append_drop]
      rw [whole]
      refine ⟨fun key found stored => ?_, rfl⟩
      rw [OrderedMap.get?_set] at stored
      split at stored
      · obtain rfl := Option.some.inj stored
        split
        · exact ⟨rfl, rfl⟩
        · next full =>
            refine ⟨count, ?_⟩
            rw [processed, List.take_of_length_le (Nat.le_of_not_lt full)]
      · exact sound key found stored

/-- The state of a slot over a history. -/
def stateOf (history : List AgentMessage) (slot : TransientRecordSlot) : SlotState :=
  slotState slot (currentContent history slot.kind)

theorem resolveSlots_sound (sound : Sound message indexes) (messages : List ρ)
    (slots : List TransientRecordSlot) :
    Sound message (resolveSlots message indexes messages slots).1 ∧
      (resolveSlots message indexes messages slots).2 =
        slots.map (stateOf (messages.map message)) := by
  induction slots generalizing indexes with
  | nil => exact ⟨sound, rfl⟩
  | cons slot slots ih =>
      obtain ⟨kept, read⟩ := transientContentIndex_sound sound messages
      obtain ⟨later, states⟩ := ih kept
      refine ⟨later, ?_⟩
      refine List.cons_eq_cons.mpr ⟨?_, states⟩
      simp only [resolveSlotContent, lastDurableTransientContent, stateOf, read,
        join_get?_foldl_indexMessage]

def informationalRecords (history : List AgentMessage) (slots : List TransientRecordSlot) :
    List AgentMessage :=
  ((slots.filter fun slot => !slot.trailing).map (stateOf history)).flatMap informationalRecord

/-- What a reconciliation appends to a history. -/
def reconciled (history : List AgentMessage) (slots : List TransientRecordSlot) :
    List AgentMessage :=
  informationalRecords history slots ++
    trailingRecords (history ++ informationalRecords history slots)
      ((slots.filter (·.trailing)).map (stateOf history))

/-- The records do not depend on what was reconciled before. -/
theorem reconcileTransientRecords_sound (sound : Sound message indexes) (messages : List ρ)
    (slots : List TransientRecordSlot) :
    Sound message (reconcileTransientRecords message indexes messages slots).1 ∧
      (reconcileTransientRecords message indexes messages slots).2 =
        reconciled (messages.map message) slots := by
  obtain ⟨kept, states⟩ :=
    resolveSlots_sound sound messages (slots.filter fun slot => !slot.trailing)
  obtain ⟨later, trailing⟩ := resolveSlots_sound kept messages (slots.filter (·.trailing))
  refine ⟨later, ?_⟩
  simp only [reconcileTransientRecords, states, trailing, reconciled, informationalRecords]

def indexesAfter (message : ρ → AgentMessage)
    (earlier : List (List ρ × List TransientRecordSlot)) : TransientContentIndexes ρ :=
  earlier.foldl
    (fun indexes call => (reconcileTransientRecords message indexes call.1 call.2).1) .empty

theorem indexesAfter_sound (message : ρ → AgentMessage)
    (earlier : List (List ρ × List TransientRecordSlot)) :
    Sound message (indexesAfter message earlier) := by
  unfold indexesAfter
  induction earlier using List.reverseRecOn with
  | nil => exact sound_empty
  | append_singleton earlier call ih =>
      rw [List.foldl_append]
      exact (reconcileTransientRecords_sound ih call.1 call.2).1

end

theorem sliceOff_append (content note : Text) : sliceOff (content ++ note) note.length = content := by
  unfold sliceOff
  rw [if_pos (by simp), List.length_append, Nat.add_sub_cancel, List.take_left]

theorem lookup_optional {name other : String} (different : other ≠ name) (value : Option Json) :
    (Json.optionalField name value).lookup other = none := by
  cases value with
  | none => rfl
  | some value =>
      have mismatch : (other == name) = false := by simpa using different
      simp [Json.optionalField, List.lookup_cons, mismatch]

/-- A content that a cumulative record gives back: the note at its end would be taken off. -/
def Readable (slot : TransientRecordSlot) : Prop :=
  slot.cumulative = true → slot.trailing = false →
    ∀ content, (slot.content = some content ∨ slot.clearedText = some content) →
      ¬TRANSIENT_RECORD_SUPERSEDING_NOTE <:+ content

variable (kind content : Text)

@[simp]
theorem customKind_buildTransientRecord (cumulative : Bool)
    (record : Option TransientRecordPayload) :
    customKind (buildTransientRecord kind content cumulative record) = some kind := by
  cases cumulative <;> rfl

variable (slot : TransientRecordSlot)

@[simp]
theorem customKind_pointer : customKind slot.pointer = some slot.kind :=
  rfl

@[simp]
theorem isPointerRecord_pointer : isPointerRecord slot.pointer = true :=
  rfl

@[simp]
theorem isPointerRecord_buildTransientRecord (cumulative : Bool)
    (record : Option TransientRecordPayload) :
    isPointerRecord (buildTransientRecord kind content cumulative record) = false := by
  cases cumulative <;>
    simp [buildTransientRecord, createCustomMessage, isPointerRecord, isMarked, Json.field,
      List.lookup_cons, payloadField, lookup_optional]

theorem durable_buildTransientRecord (cumulative : Bool)
    (record : Option TransientRecordPayload)
    (readable : cumulative = true → ¬TRANSIENT_RECORD_SUPERSEDING_NOTE <:+ content) :
    durableTransientContent (buildTransientRecord kind content cumulative record) = some content := by
  cases cumulative with
  | true =>
      simp [buildTransientRecord, createCustomMessage, durableTransientContent,
        isSupersedingRecordDetails, isMarked, Json.field, List.lookup_cons, payloadField,
        lookup_optional, readable rfl]
  | false =>
      simp [buildTransientRecord, createCustomMessage, durableTransientContent,
        isSupersedingRecordDetails, isMarked, Json.field, sliceOff_append]

variable {messages added : List AgentMessage} {kind : Text}

theorem currentContent_append_nil (nothing : added.filter (isRecordOf kind) = []) :
    currentContent (messages ++ added) kind = currentContent messages kind := by
  unfold currentContent
  rw [List.filter_append, nothing, List.append_nil]

theorem currentContent_append_singleton {record : AgentMessage}
    (one : added.filter (isRecordOf kind) = [record]) :
    currentContent (messages ++ added) kind = durableTransientContent record := by
  unfold currentContent
  rw [List.filter_append, one, List.getLast?_append]
  rfl

section

variable {records : TransientRecordSlot → List AgentMessage}
  (named : ∀ slot, ∀ record ∈ records slot, customKind record = some slot.kind)

include named

variable {slots : List TransientRecordSlot}

theorem filter_records_of_not_mem (absent : kind ∉ slots.map (·.kind)) :
    (slots.flatMap records).filter (isRecordOf kind) = [] := by
  rw [List.filter_eq_nil_iff]
  intro record member
  obtain ⟨slot, slotMember, inside⟩ := List.mem_flatMap.mp member
  have different : slot.kind ≠ kind := fun same =>
    absent (List.mem_map.mpr ⟨slot, slotMember, same⟩)
  simp [isRecordOf, named slot record inside, different]

/-- The records of a kind are those that its own slot appends. -/
theorem filter_records_of_mem (distinct : (slots.map (·.kind)).Nodup) {slot : TransientRecordSlot}
    (member : slot ∈ slots) :
    (slots.flatMap records).filter (isRecordOf slot.kind) =
      (records slot).filter (isRecordOf slot.kind) := by
  induction slots with
  | nil => cases member
  | cons first slots ih =>
      rw [List.map_cons, List.nodup_cons] at distinct
      rw [List.flatMap_cons, List.filter_append]
      rcases List.mem_cons.mp member with rfl | later
      · rw [filter_records_of_not_mem named distinct.1, List.append_nil]
      · rw [ih distinct.2 later]
        have different : first.kind ≠ slot.kind := fun same =>
          distinct.1 (List.mem_map.mpr ⟨slot, later, same.symm⟩)
        have none : (records first).filter (isRecordOf slot.kind) = [] := by
          rw [List.filter_eq_nil_iff]
          intro record inside
          simp [isRecordOf, named first record inside, different]
        rw [none, List.nil_append]

end

/-- The trailing slots that are live or just being cleared. -/
def placedSlots (history : List AgentMessage) (slots : List TransientRecordSlot) :
    List TransientRecordSlot :=
  (slots.filter (·.trailing)).filter fun slot => (stateOf history slot).active

def liveSlots (slots : List TransientRecordSlot) : List TransientRecordSlot :=
  (slots.filter (·.trailing)).filter fun slot => slot.content.isSome

theorem filter_active (history : List AgentMessage) (slots : List TransientRecordSlot) :
    ((slots.filter (·.trailing)).map (stateOf history)).filter SlotState.active =
      (placedSlots history slots).map (stateOf history) := by
  rw [List.filter_map]
  rfl

variable {history : List AgentMessage} {slots : List TransientRecordSlot}
  {slot : TransientRecordSlot}

/-- The trailing slots append full records, pointers or nothing. -/
theorem trailingRecords_cases (messages history : List AgentMessage)
    (slots : List TransientRecordSlot) :
    let placed := placedSlots history slots
    let appended := trailingRecords messages ((slots.filter (·.trailing)).map (stateOf history))
    (appended = placed.flatMap fun slot => [(stateOf history slot).fullRecord]) ∨
    (∀ slot ∈ placed, (stateOf history slot).nextContent = (stateOf history slot).lastContent) ∧
      (appended = (placed.flatMap fun slot => [slot.pointer]) ∨
        appended = [] ∧
          tailKinds messages placed.length = placed.map fun slot => some slot.kind) := by
  unfold trailingRecords
  rw [filter_active]
  by_cases empty : placedSlots history slots = []
  · rw [empty]
    exact .inl rfl
  · rw [if_neg (by simpa using empty)]
    simp only [List.any_map, List.map_map, List.length_map]
    split
    · exact .inl (by rw [← List.map_eq_flatMap]; rfl)
    · next same =>
        refine .inr ⟨fun slot member => ?_, ?_⟩
        · by_contra different
          exact same (List.any_eq_true.mpr ⟨slot, member, by simpa using different⟩)
        · split
          · exact .inl (by rw [← List.map_eq_flatMap]; rfl)
          · next intact => exact .inr ⟨rfl, Decidable.of_not_not intact⟩

variable {state : SlotState}

theorem next_or_last_of_not_active (idle : ¬state.active = true) :
    state.nextContent.or state.lastContent = state.lastContent := by
  cases next : state.nextContent with
  | none => rfl
  | some content =>
      have same : state.nextContent = state.lastContent := by
        by_contra different
        exact idle (by
          unfold SlotState.active
          rw [decide_eq_true different, Bool.or_true, next]
          rfl)
      rw [← same, next]
      rfl

theorem kind_eq_of_mem (distinct : (slots.map (·.kind)).Nodup) {other : TransientRecordSlot}
    (member : slot ∈ slots) (otherMember : other ∈ slots) (same : slot.kind = other.kind) :
    slot = other :=
  List.inj_on_of_nodup_map distinct member otherMember same

theorem informational_named (history : List AgentMessage) (slot : TransientRecordSlot) :
    ∀ record ∈ informationalRecord (stateOf history slot), customKind record = some slot.kind := by
  intro record member
  unfold informationalRecord at member
  split at member
  · cases member
  · split at member
    · cases member
    · obtain rfl := List.mem_singleton.mp member
      simp [stateOf, slotState]

theorem informationalRecords_eq (history : List AgentMessage) (slots : List TransientRecordSlot) :
    informationalRecords history slots = (slots.filter fun slot => !slot.trailing).flatMap
      fun slot => informationalRecord (stateOf history slot) := by
  unfold informationalRecords
  rw [List.flatMap_map]

theorem filter_informational (history : List AgentMessage)
    (distinct : (slots.map (·.kind)).Nodup) (member : slot ∈ slots) :
    (informationalRecords history slots).filter (isRecordOf slot.kind) =
      if slot.trailing then []
      else (informationalRecord (stateOf history slot)).filter (isRecordOf slot.kind) := by
  rw [informationalRecords_eq]
  have sublist : (slots.filter fun slot => !slot.trailing).Sublist slots := List.filter_sublist
  split
  · next trailing =>
      refine filter_records_of_not_mem (informational_named history) fun inside => ?_
      obtain ⟨other, otherMember, same⟩ := List.mem_map.mp inside
      obtain ⟨inSlots, notTrailing⟩ := List.mem_filter.mp otherMember
      obtain rfl := kind_eq_of_mem distinct inSlots member same
      simp [trailing] at notTrailing
  · next informational =>
      refine filter_records_of_mem (informational_named history)
        ((sublist.map _).nodup distinct) ?_
      exact List.mem_filter.mpr ⟨member, by simpa using informational⟩

theorem mem_placedSlots : slot ∈ placedSlots history slots ↔
    slot ∈ slots ∧ slot.trailing = true ∧ (stateOf history slot).active = true := by
  simp only [placedSlots, List.mem_filter, and_assoc]

/-- The full records that trailing slots append for a slot of the reconciliation. -/
theorem filter_placed (distinct : (slots.map (·.kind)).Nodup) (member : slot ∈ slots)
    {records : TransientRecordSlot → AgentMessage}
    (named : ∀ slot, customKind (records slot) = some slot.kind) :
    ((placedSlots history slots).flatMap fun slot => [records slot]).filter
        (isRecordOf slot.kind) =
      if slot.trailing && (stateOf history slot).active then
        [records slot].filter (isRecordOf slot.kind)
      else [] := by
  have each : ∀ slot, ∀ record ∈ [records slot], customKind record = some slot.kind := by
    intro slot record inside
    rw [List.mem_singleton.mp inside]
    exact named slot
  have sublist : (placedSlots history slots).Sublist slots :=
    List.filter_sublist.trans List.filter_sublist
  split
  · next placed =>
      refine filter_records_of_mem each ((sublist.map _).nodup distinct) ?_
      exact mem_placedSlots.mpr ⟨member, Bool.and_eq_true_iff.mp placed⟩
  · next absent =>
      refine filter_records_of_not_mem each fun inside => absent ?_
      obtain ⟨other, otherMember, same⟩ := List.mem_map.mp inside
      obtain rfl := kind_eq_of_mem distinct (sublist.subset otherMember) member same
      exact Bool.and_eq_true_iff.mpr (mem_placedSlots.mp otherMember).2

theorem filter_informationalRecord (history : List AgentMessage) (slot : TransientRecordSlot) :
    (informationalRecord (stateOf history slot)).filter (isRecordOf slot.kind) =
      informationalRecord (stateOf history slot) := by
  rw [List.filter_eq_self]
  intro record member
  have named := informational_named history slot record member
  unfold informationalRecord at member
  split at member
  · cases member
  · split at member
    · cases member
    · rw [List.mem_singleton.mp member] at named ⊢
      simp [isRecordOf, stateOf, slotState]

theorem nextContent_stateOf {content : Text}
    (next : (stateOf history slot).nextContent = some content) :
    slot.content = some content ∨ slot.clearedText = some content := by
  rcases Option.or_eq_some_iff.mp next with live | ⟨-, cleared⟩
  · exact .inl live
  · split at cleared
    · exact .inr cleared
    · cases cleared

theorem filter_trailing (distinct : (slots.map (·.kind)).Nodup) (member : slot ∈ slots)
    (messages history : List AgentMessage) :
    let own := (trailingRecords messages
      ((slots.filter (·.trailing)).map (stateOf history))).filter (isRecordOf slot.kind)
    (own = [] ∧ ((slot.trailing && (stateOf history slot).active) = false ∨
      (stateOf history slot).nextContent = (stateOf history slot).lastContent)) ∨
    (own = [(stateOf history slot).fullRecord] ∧
      (slot.trailing && (stateOf history slot).active) = true) := by
  rcases trailingRecords_cases messages history slots with full | ⟨unchanged, pointers | ⟨nothing, -⟩⟩
  · rw [full, filter_placed distinct member fun slot => by
      simp [SlotState.fullRecord, stateOf, slotState]]
    cases placed : slot.trailing && (stateOf history slot).active with
    | false => exact .inl ⟨rfl, .inl rfl⟩
    | true =>
        simp [isRecordOf, SlotState.fullRecord, stateOf, slotState]
  all_goals
    refine .inl ⟨?_, ?_⟩
    · first
      | rw [nothing]
        rfl
      | rw [pointers, filter_placed distinct member fun slot => customKind_pointer slot]
        simp [isRecordOf]
    · cases placed : slot.trailing && (stateOf history slot).active with
      | false => exact .inl rfl
      | true =>
          exact .inr (unchanged slot (mem_placedSlots.mpr
            ⟨member, Bool.and_eq_true_iff.mp placed⟩))

/-- A reconciliation gives every slot the content it should have. -/
theorem currentContent_reconciled (distinct : (slots.map (·.kind)).Nodup)
    (readable : ∀ slot ∈ slots, Readable slot) (member : slot ∈ slots) :
    currentContent (history ++ reconciled history slots) slot.kind =
      (stateOf history slot).nextContent.or (stateOf history slot).lastContent := by
  unfold reconciled
  have informational := filter_informational history distinct member
  have trailing := filter_trailing distinct member
    (history ++ informationalRecords history slots) history
  rw [← List.append_assoc]
  rcases trailing with ⟨none, idle⟩ | ⟨one, placed⟩
  · rw [currentContent_append_nil none]
    cases isTrailing : slot.trailing with
    | true =>
        rw [isTrailing, if_pos rfl] at informational
        rw [currentContent_append_nil informational]
        rw [isTrailing, Bool.true_and] at idle
        rcases idle with idle | same
        · exact (next_or_last_of_not_active (Bool.eq_false_iff.mp idle)).symm
        · rw [same, Option.or_self]
          rfl
    | false =>
        rw [isTrailing, if_neg Bool.false_ne_true, filter_informationalRecord] at informational
        unfold informationalRecord at informational
        split at informational
        · next next =>
            rw [currentContent_append_nil informational, next]
            rfl
        · next content next =>
            split at informational
            · next same =>
                rw [currentContent_append_nil informational, next, ← same]
                exact Option.or_self.symm
            · rw [currentContent_append_singleton informational, next]
              exact durable_buildTransientRecord _ _ _ _ fun cumulative =>
                readable slot member cumulative isTrailing content (nextContent_stateOf next)
  · rw [currentContent_append_singleton one]
    have active := (Bool.and_eq_true_iff.mp placed).2
    obtain ⟨content, next⟩ := Option.isSome_iff_exists.mp (Bool.and_eq_true_iff.mp active).1
    rw [SlotState.fullRecord, durable_buildTransientRecord _ _ false _ (by simp), next]
    rfl

/-- Once reconciled, every slot has the content it should have. -/
theorem settled (slot : TransientRecordSlot) (last : Option Text) :
    let state := slotState slot last
    let next := slotState slot (state.nextContent.or state.lastContent)
    (next.nextContent = none ∨ next.nextContent = next.lastContent) ∧
      next.active = slot.content.isSome := by
  cases content : slot.content with
  | some text => simp [slotState, content, SlotState.active]
  | none =>
      cases last with
      | none => simp [slotState, content, SlotState.active]
      | some last =>
          cases cleared : slot.clearedText with
          | none => simp [slotState, content, cleared, SlotState.active]
          | some text => simp [slotState, content, cleared, SlotState.active]

theorem tailKinds_append {count : Nat} (length : added.length = count) :
    tailKinds (messages ++ added) count = added.map customKind := by
  unfold tailKinds
  rw [List.length_append, ← length, Nat.add_sub_cancel, List.drop_left]

/-- The placed slots stand at the end, in their order. -/
theorem tailKinds_reconciled (history : List AgentMessage) (slots : List TransientRecordSlot) :
    tailKinds (history ++ reconciled history slots) (placedSlots history slots).length =
      (placedSlots history slots).map fun slot => some slot.kind := by
  unfold reconciled
  rw [← List.append_assoc]
  rcases trailingRecords_cases (history ++ informationalRecords history slots) history slots with
    full | ⟨-, pointers | ⟨nothing, tail⟩⟩
  · rw [full, ← List.map_eq_flatMap, tailKinds_append (List.length_map _), List.map_map]
    exact List.map_congr_left fun slot _ => by simp [SlotState.fullRecord, stateOf, slotState]
  · rw [pointers, ← List.map_eq_flatMap, tailKinds_append (List.length_map _), List.map_map]
    rfl
  · rw [nothing, List.append_nil]
    exact tail

/-- No slot that has just been cleared stands behind a live one. -/
def LiveLast (history : List AgentMessage) (slots : List TransientRecordSlot) : Prop :=
  (placedSlots history slots).Pairwise fun first second =>
    first.content.isSome = true → second.content.isSome = true

instance (history : List AgentMessage) (slots : List TransientRecordSlot) :
    Decidable (LiveLast history slots) := inferInstanceAs (Decidable (List.Pairwise _ _))

/-- Elements come last exactly when they make up the end of the list. -/
theorem pairwise_imp_iff {α : Type} (holds : α → Bool) (elements : List α) :
    elements.Pairwise (fun first second => holds first = true → holds second = true) ↔
      elements.drop (elements.length - (elements.filter holds).length) = elements.filter holds := by
  constructor
  · intro ordered
    induction elements with
    | nil => rfl
    | cons first elements ih =>
        obtain ⟨ahead, ordered⟩ := List.pairwise_cons.mp ordered
        by_cases held : holds first = true
        · have all : (first :: elements).filter holds = first :: elements :=
            List.filter_eq_self.mpr fun element member => by
              rcases List.mem_cons.mp member with rfl | later
              · exact held
              · exact ahead element later held
          rw [all, Nat.sub_self, List.drop_zero]
        · have bound := List.length_filter_le holds elements
          rw [List.filter_cons_of_neg held, List.length_cons, Nat.succ_sub bound,
            List.drop_succ_cons]
          exact ih ordered
  · intro same
    have whole := List.take_append_drop
      (elements.length - (elements.filter holds).length) elements
    rw [same] at whole
    have none : (elements.take (elements.length - (elements.filter holds).length)).filter holds =
        [] := by
      have kept : (elements.filter holds).filter holds = elements.filter holds :=
        List.filter_eq_self.mpr fun element member => (List.mem_filter.mp member).2
      have filtered := congrArg (List.filter holds) whole
      rw [List.filter_append, kept] at filtered
      have lengths := congrArg List.length filtered
      rw [List.length_append] at lengths
      exact List.length_eq_zero_iff.mp (by omega)
    rw [← whole, List.pairwise_append]
    refine ⟨?_, ?_, ?_⟩
    · refine List.pairwise_of_forall_mem_list fun first firstMember _ _ held => ?_
      exact absurd held (List.filter_eq_nil_iff.mp none first firstMember)
    · exact List.pairwise_of_forall_mem_list fun _ _ second secondMember _ =>
        (List.mem_filter.mp secondMember).2
    · exact fun first firstMember second secondMember _ => (List.mem_filter.mp secondMember).2

end PiAdaptative.TransientRecords
