import PiAdaptative.Foundations.Execution
import PiAdaptative.Session.ParentInputIndex

/-!
# Consumption of parent inputs

What an entry does to the ledger is one event: a delivery is accepted, skipped, consumed by an answer
or by the settlement of a wake, or named by a consumption record.  A delivery is pending from its
acceptance to its one removal and recorded at most once, as long as no answer is credited with inputs
that another answer consumed or still claims.
-/

namespace PiAdaptative.Session

open ParentInputIndex (completedTerminal isFinalAnswer)

variable {env : Platform} {lookup : Lookup} {entry : SessionEntry}
variable {index after : ParentInputIndex} {deliveryId : String}

def deliveries (inputs : List ParentWakeInput) : List String :=
  inputs.map ParentWakeInput.deliveryId

inductive LedgerEvent where
  | accepted (deliveryId : String)
  | skipped (deliveryId : String)
  /-- A completed owner-turn request consumes the notes bound to it. -/
  | answered (deliveryIds : List String)
  | settled (deliveryIds : List String)
  | recorded (deliveryIds : List String)
  | other
  deriving DecidableEq

/-- The event takes the delivery out of the pending set. -/
def LedgerEvent.Removes : LedgerEvent → String → Prop
  | .skipped skippedId, deliveryId => skippedId = deliveryId
  | .answered deliveryIds, deliveryId | .settled deliveryIds, deliveryId => deliveryId ∈ deliveryIds
  | _, _ => False

/-- The event takes the delivery out of the pending set by consumption. -/
def LedgerEvent.Consumes : LedgerEvent → String → Prop
  | .answered deliveryIds, deliveryId | .settled deliveryIds, deliveryId => deliveryId ∈ deliveryIds
  | _, _ => False

/-- The event is a consumption record that names the delivery. -/
def LedgerEvent.Records : LedgerEvent → String → Prop
  | .recorded deliveryIds, deliveryId => deliveryId ∈ deliveryIds
  | _, _ => False

def consumingEvent (index : ParentInputIndex) (lookup : Lookup) (entry : SessionEntry) :
    LedgerEvent :=
  match index.consumption lookup entry, parentWakeSettlementOf entry with
  | .ok (some consumed), _ =>
      if consumed.mode = .nextOwnerTurn then .answered (deliveries consumed.inputs) else .other
  | _, .ok (some settlement) =>
      match index.wakes.get? settlement.wakeId with
      | some wake => .settled (deliveries wake.inputs)
      | none => .other
  | _, _ => .other

def ledgerEvent (env : Platform) (index : ParentInputIndex) (lookup : Lookup)
    (entry : SessionEntry) : LedgerEvent :=
  match parentInputConsumptionOf entry, parentInputSkipOf entry, parentInputOf env entry with
  | .ok (some consumption), _, _ => .recorded (deliveries consumption.inputs)
  | _, .ok (some skip), _ => .skipped skip.deliveryId
  | _, _, .ok (some input) => .accepted input.metadata.deliveryId
  | _, _, _ => consumingEvent index lookup entry

def LedgerStep (env : Platform) (before : ParentInputIndex) (read : Lookup × SessionEntry)
    (after : ParentInputIndex) : Prop :=
  before.apply env read.1 read.2 = .ok after

/-- The applied entries from the empty index, each with the index before it. -/
abbrev LedgerRun (env : Platform)
    (history : List (ParentInputIndex × (Lookup × SessionEntry))) (index : ParentInputIndex) :
    Prop :=
  Execution (LedgerStep env) .initial history index

def ledgerEvents (env : Platform) (history : List (ParentInputIndex × (Lookup × SessionEntry))) :
    List LedgerEvent :=
  history.map fun step => ledgerEvent env step.1 step.2.1 step.2.2

/-- The index expects a consumption record that names the delivery. -/
def Expects (index : ParentInputIndex) (deliveryId : String) : Prop :=
  ∃ terminalEntryId consumed, index.expectedConsumptions.get? terminalEntryId = some consumed ∧
    deliveryId ∈ deliveries consumed.inputs

/-- Inputs are consumed at most once and never lost. -/
structure InputsConsumedOnce (env : Platform)
    (history : List (ParentInputIndex × (Lookup × SessionEntry))) (index : ParentInputIndex) :
    Prop where
  pending : ∀ deliveryId, (index.pending.get? deliveryId).isSome = true ↔
    .accepted deliveryId ∈ ledgerEvents env history ∧
      ∀ event ∈ ledgerEvents env history, ¬event.Removes deliveryId
  removedOnce : ∀ deliveryId, (ledgerEvents env history).Pairwise fun event later =>
    ¬(event.Removes deliveryId ∧ later.Removes deliveryId)
  recordedOnce : ∀ deliveryId, (ledgerEvents env history).Pairwise fun event later =>
    ¬(event.Records deliveryId ∧ later.Records deliveryId)
  /-- No consumption record names a skipped or a pending delivery. -/
  recorded : ∀ event ∈ ledgerEvents env history, ∀ deliveryId, event.Records deliveryId →
    .skipped deliveryId ∉ ledgerEvents env history ∧ index.pending.get? deliveryId = none
  /-- Consumption leaves an expected consumption record that names the delivery. -/
  expected : ∀ step ∈ history, ∀ deliveryId,
    (ledgerEvent env step.1 step.2.1 step.2.2).Consumes deliveryId →
      ∃ next, LedgerStep env step.1 step.2 next ∧ Expects next deliveryId

/-- The entry is a completed terminal that gives the request a final answer. -/
def Answers (lookup : Lookup) (entry : SessionEntry) (requestId : String) : Prop :=
  ∃ answerId, completedTerminal entry = some (requestId, answerId) ∧
    isFinalAnswer (lookup answerId) = true

/-- The entry answers a request that an earlier terminal ended, that is bound both ways or one of
whose inputs an answer has consumed or an expected consumption claims, or it reuses the identity of
a terminal whose consumption is expected. -/
def MisplacesCredit (index : ParentInputIndex) (lookup : Lookup) (entry : SessionEntry) : Prop :=
  ∃ requestId inputs, Answers lookup entry requestId ∧
    index.requestInputs requestId = some inputs ∧
    (index.requestBindings.get? requestId = none ∨
      index.requestNotes.has requestId = true ∧ index.requestWakes.has requestId = true ∨
      index.expectedConsumptions.has entry.id = true ∨
      ∃ deliveryId ∈ deliveries inputs,
        index.pending.get? deliveryId = none ∨ Expects index deliveryId)

def SameManifests (wakes next : OrderedMap String ParentInputWake) : Prop :=
  ∀ wakeId, (next.get? wakeId).map (fun wake => (wake.entryId, wake.wakeId, wake.inputs)) =
    (wakes.get? wakeId).map fun wake => (wake.entryId, wake.wakeId, wake.inputs)

theorem SameManifests.refl (wakes : OrderedMap String ParentInputWake) :
    SameManifests wakes wakes := fun _ => rfl

variable {wakes : OrderedMap String ParentInputWake} {wake : ParentInputWake}

theorem SameManifests.set {wakeId : String} (present : wakes.get? wakeId = some wake)
    (completed : Option WakeCompletion) :
    SameManifests wakes (wakes.set wakeId { wake with completed }) := by
  intro other
  rw [OrderedMap.get?_set]
  split
  next same => simp [same, present]
  · rfl

/-- The open requests carry no other notes. -/
def FewerNotes (notes next : OrderedMap String (List ParentWakeInput)) : Prop :=
  ∀ {requestId inputs}, next.get? requestId = some inputs → notes.get? requestId = some inputs

/-- What applying an entry does to the index, after an awaited record was dropped. -/
inductive Advances (lookup : Lookup) (entry : SessionEntry) (index : ParentInputIndex) :
    LedgerEvent → ParentInputIndex → Prop
  | recorded {consumption : ParentInputConsumption}
      (expected : index.expectedConsumptions.get? consumption.terminalEntryId = some consumption)
      (closed : consumption.mode = .turn → index.openWake = none) :
      Advances lookup entry index (.recorded (deliveries consumption.inputs))
        { index with
          expectedConsumptions := index.expectedConsumptions.erase consumption.terminalEntryId }
  | skipped {skip : ParentInputSkip} {held : PersistedParentInput}
      (present : index.pending.get? skip.deliveryId = some held)
      (mode : held.metadata.mode = .nextOwnerTurn) :
      Advances lookup entry index (.skipped skip.deliveryId)
        { index with
          pending := index.pending.erase skip.deliveryId
          skipped := index.skipped ++ [skip.deliveryId] }
  | accepted {input : PersistedParentInput}
      (fresh : index.accepted.get? input.metadata.deliveryId = none) :
      Advances lookup entry index (.accepted input.metadata.deliveryId)
        { index with
          accepted := index.accepted.set input.metadata.deliveryId input
          pending := index.pending.set input.metadata.deliveryId input }
  | opened {wake : ParentInputWake} (named : wake.wakeId ≠ "") (unanswered : wake.completed = none)
      (closed : index.openWake = none) (fresh : index.wakes.get? wake.wakeId = none)
      (selected : ∀ item ∈ wake.inputs, index.namesPendingInput .turn item = true) :
      Advances lookup entry index .other
        { index with
          wakes := index.wakes.set wake.wakeId wake
          currentWakeId := some wake.wakeId }
  | started : Advances lookup entry index .other (index.startRequest entry)
  | ownerBound {requestId : String} {inputs : List ParentWakeInput}
      (bindings : OrderedMap String RequestBinding)
      (selected : ∀ item ∈ inputs, index.namesPendingInput .nextOwnerTurn item = true) :
      Advances lookup entry index .other
        { index with
          requestNotes := index.requestNotes.set requestId inputs
          requestBindings := bindings }
  | wakeBound {requestId wakeId : String} {wake : ParentInputWake}
      {expected : OrderedMap String ParentInputConsumption}
      (bindings : OrderedMap String RequestBinding)
      (present : index.wakes.get? wakeId = some wake) (unsettled : wakeId ∉ index.settled)
      (fewer : ∀ {terminalEntryId consumed}, expected.get? terminalEntryId = some consumed →
        index.expectedConsumptions.get? terminalEntryId = some consumed) :
      Advances lookup entry index .other
        { index with
          requestWakes := index.requestWakes.set requestId wakeId
          requestBindings := bindings
          expectedConsumptions := expected
          wakes := index.wakes.set wakeId { wake with completed := none } }
  | ended {wakes : OrderedMap String ParentInputWake}
      {notes : OrderedMap String (List ParentWakeInput)}
      (bindings : OrderedMap String RequestBinding) (forgets : FewerNotes index.requestNotes notes)
      (same : SameManifests index.wakes wakes)
      (unproven : ∀ {wakeId wake item}, wakes.get? wakeId = some wake → item ∈ wake.inputs →
        index.wakes.get? wakeId = some wake ∨ MisplacesCredit index lookup entry) :
      Advances lookup entry index .other
        { index with
          wakes := wakes
          requestNotes := notes
          requestBindings := bindings }
  | completed {wake : ParentInputWake} {consumed : ParentInputConsumption}
      {completion : WakeCompletion} {notes : OrderedMap String (List ParentWakeInput)}
      (bindings : OrderedMap String RequestBinding) (forgets : FewerNotes index.requestNotes notes)
      (present : index.wakes.get? wake.wakeId = some wake)
      (terminal : completion.terminalEntryId = entry.id)
      (answers : Answers lookup entry consumed.requestId)
      (inputs : index.requestInputs consumed.requestId = some consumed.inputs)
      (carried : index.requestNotes.has consumed.requestId = true ∧
        index.requestWakes.has consumed.requestId = true ∨ consumed.inputs = wake.inputs)
      (mode : consumed.mode = .turn) :
      Advances lookup entry index .other
        { index with
          wakes := index.wakes.set wake.wakeId { wake with completed := some completion }
          expectedConsumptions := index.expectedConsumptions.set entry.id consumed
          requestNotes := notes
          requestBindings := bindings }
  | answered {consumed : ParentInputConsumption}
      {notes : OrderedMap String (List ParentWakeInput)}
      (bindings : OrderedMap String RequestBinding) (forgets : FewerNotes index.requestNotes notes)
      (answers : Answers lookup entry consumed.requestId)
      (inputs : index.requestNotes.get? consumed.requestId = some consumed.inputs)
      (mode : consumed.mode = .nextOwnerTurn) :
      Advances lookup entry index (.answered (deliveries consumed.inputs))
        { index with
          expectedConsumptions := index.expectedConsumptions.set entry.id consumed
          pending := consumed.inputs.foldl (fun pending input => pending.erase input.deliveryId)
            index.pending
          awaitingImmediateConsumption := some entry.id
          requestNotes := notes
          requestBindings := bindings }
  | settled {settlement : ParentWakeSettlement} {wake : ParentInputWake}
      {completed : WakeCompletion}
      (stated : parentWakeSettlementOf entry = .ok (some settlement))
      (present : index.wakes.get? settlement.wakeId = some wake)
      (answer : wake.completed = some completed) (unsettled : settlement.wakeId ∉ index.settled) :
      Advances lookup entry index (.settled (deliveries wake.inputs))
        { index with
          pending := wake.inputs.foldl (fun pending input => pending.erase input.deliveryId)
            index.pending
          awaitingImmediateConsumption := some completed.terminalEntryId
          settled := index.settled ++ [wake.wakeId]
          currentWakeId := none
          currentRequestId := none
          requestWakes := .empty }
  | kept : Advances lookup entry index .other index

theorem customData_eq_some {customType : String} {data : Option Json} :
    customData entry customType = some data ↔ entry.body = .custom customType data := by
  unfold customData
  split
  next present other body =>
    split
    next same => simp [body, same]
    next apart => simp [body, apart]
  next other => simpa using fun same => other _ _ same

theorem consumption_of_other (other : completedTerminal entry = none) :
    index.consumption lookup entry = .ok none := by
  simp only [ParentInputIndex.consumption, other]

section

variable (other : ∀ requestId outcome answerId, entry.body ≠ .providerRequestTerminal requestId outcome answerId)
include other

theorem completedTerminal_of_other : completedTerminal entry = none := by
  unfold completedTerminal
  split
  next body => exact absurd body (other _ _ _)
  · rfl

theorem applyTerminal_of_other : index.applyTerminal lookup entry = .ok index := by
  have unended : index.endRequest entry = index := by
    unfold ParentInputIndex.endRequest
    split
    next body => exact absurd body (other _ _ _)
    · rfl
  have uncompleted : index.completeWake lookup entry = index := by
    simp only [ParentInputIndex.completeWake, completedTerminal_of_other other]
  have unread : index.consumption lookup entry = .ok none :=
    consumption_of_other (completedTerminal_of_other other)
  simp [ParentInputIndex.applyTerminal, uncompleted, unread,
    ParentInputIndex.expectConsumption, unended]

end

theorem requestWake_congr (same : SameManifests index.wakes wakes) (requestId : String) :
    (ParentInputIndex.requestWake { index with wakes := wakes } requestId).map
        (fun wake => (wake.entryId, wake.wakeId, wake.inputs)) =
      (index.requestWake requestId).map fun wake => (wake.entryId, wake.wakeId, wake.inputs) := by
  unfold ParentInputIndex.requestWake
  cases truthy (index.requestWakes.get? requestId) with
  | none => rfl
  | some wakeId => exact same wakeId

theorem consumption_congr (same : SameManifests index.wakes wakes) :
    ParentInputIndex.consumption { index with wakes := wakes } lookup entry =
      index.consumption lookup entry := by
  have inputs (requestId : String) :
      (ParentInputIndex.requestWake { index with wakes := wakes } requestId).map
        ParentInputWake.inputs = (index.requestWake requestId).map ParentInputWake.inputs := by
    simpa [Function.comp_def] using
      congrArg (Option.map fun manifest => manifest.2.2) (requestWake_congr same requestId)
  have entries (requestId : String) :
      (ParentInputIndex.requestWake { index with wakes := wakes } requestId).map
        ParentInputWake.entryId = (index.requestWake requestId).map ParentInputWake.entryId := by
    simpa [Function.comp_def] using
      congrArg (Option.map fun manifest => manifest.1) (requestWake_congr same requestId)
  simp only [ParentInputIndex.consumption, ParentInputIndex.requestInputs, inputs, entries]

/-- A final answer completes the wake of its request. -/
theorem completeWake_spec (lookup : Lookup) (entry : SessionEntry)
    (keyed : ∀ {wakeId wake}, index.wakes.get? wakeId = some wake → wake.wakeId = wakeId) :
    (index.completeWake lookup entry = index ∧
      ∀ requestId, Answers lookup entry requestId → index.requestWake requestId = none) ∨
    ∃ requestId wake completion, Answers lookup entry requestId ∧
      index.requestWake requestId = some wake ∧ index.wakes.get? wake.wakeId = some wake ∧
      completion.terminalEntryId = entry.id ∧
      index.completeWake lookup entry =
        { index with
          wakes := index.wakes.set wake.wakeId { wake with completed := some completion } } := by
  unfold ParentInputIndex.completeWake
  split
  next unended =>
    refine .inl ⟨rfl, ?_⟩
    rintro requestId ⟨answerId, ended, -⟩
    cases unended.symm.trans ended
  next requestId answerId ended =>
    split
    next wake answer carried found =>
      split
      next final =>
        obtain ⟨wakeId, -, present⟩ := Option.bind_eq_some_iff.mp carried
        refine .inr ⟨requestId, wake, _, ⟨answerId, ended, by rw [found]; exact final⟩, carried, ?_,
          rfl, rfl⟩
        rw [keyed present]
        exact present
      next unfinished =>
        refine .inl ⟨rfl, ?_⟩
        rintro other ⟨otherAnswer, otherEnded, final⟩
        obtain ⟨rfl, rfl⟩ := Prod.mk.inj (Option.some.inj (ended.symm.trans otherEnded))
        rw [found] at final
        exact absurd final unfinished
    next missing =>
      refine .inl ⟨rfl, ?_⟩
      rintro other ⟨otherAnswer, otherEnded, final⟩
      obtain ⟨rfl, rfl⟩ := Prod.mk.inj (Option.some.inj (ended.symm.trans otherEnded))
      cases carried : index.requestWake requestId with
      | none => rfl
      | some wake =>
          cases found : lookup answerId with
          | none =>
              rw [found] at final
              cases final
          | some answer => exact absurd found (missing _ _ carried)

variable {consumed : ParentInputConsumption}

/-- A consumption is of the inputs that an answered request carries. -/
theorem consumption_eq_some (reads : index.consumption lookup entry = .ok (some consumed)) :
    Answers lookup entry consumed.requestId ∧
      index.requestInputs consumed.requestId = some consumed.inputs ∧
      (consumed.mode = .turn ∧ index.requestWakes.has consumed.requestId = true ∧
          (index.requestWake consumed.requestId).isSome = true ∨
        consumed.mode = .nextOwnerTurn ∧ index.requestWake consumed.requestId = none) := by
  unfold ParentInputIndex.consumption at reads
  split at reads
  · cases reads
  next requestId answerId ended =>
    split at reads
    next input inputs binding carries bound =>
      split at reads
      · cases reads
      next final =>
        rw [Bool.not_eq_false] at final
        simp only at reads
        split at reads
        · cases reads
        next authorizationEntryId authorized =>
          obtain rfl := Option.some.inj (Except.ok.inj reads)
          refine ⟨⟨answerId, ended, final⟩, carries, ?_⟩
          obtain ⟨authorization, -⟩ := truthy_eq_some.mp authorized
          cases carried : truthy (index.requestWakes.get? requestId) with
          | none => exact .inr ⟨by simp, by simp [ParentInputIndex.requestWake, carried]⟩
          | some wakeId =>
              refine .inl ⟨by simp, ?_, ?_⟩
              · exact OrderedMap.has_eq_true.mpr ⟨_, (truthy_eq_some.mp carried).1⟩
              · rw [carried] at authorization
                simp only [Option.isSome_some, if_true, Option.map_eq_some_iff] at authorization
                obtain ⟨wake, found, -⟩ := authorization
                simp [found]
    · cases reads

theorem consumption_eq_none {requestId : String}
    (reads : index.consumption lookup entry = .ok none) (answers : Answers lookup entry requestId) :
    index.requestBindings.get? requestId = none ∨
      ∀ inputs, index.requestInputs requestId = some inputs → inputs = [] := by
  obtain ⟨answerId, ended, final⟩ := answers
  simp only [ParentInputIndex.consumption, ended] at reads
  cases bound : index.requestBindings.get? requestId with
  | none => exact .inl rfl
  | some binding =>
      refine .inr fun inputs carries => ?_
      cases inputs with
      | nil => rfl
      | cons input inputs =>
          simp only [carries, bound, final, Bool.true_eq_false, if_false] at reads
          split at reads <;> cases reads

theorem endRequest_eq (index : ParentInputIndex) (entry : SessionEntry) :
    ∃ notes bindings, index.endRequest entry =
        { index with
          requestNotes := notes
          requestBindings := bindings } ∧
      FewerNotes index.requestNotes notes := by
  unfold ParentInputIndex.endRequest
  split
  · exact ⟨_, _, rfl, fun found => (OrderedMap.get?_of_erase found).1⟩
  · exact ⟨_, _, rfl, id⟩

variable {notes : OrderedMap String (List ParentWakeInput)}

section

variable (keyed : ∀ {wakeId wake}, index.wakes.get? wakeId = some wake → wake.wakeId = wakeId)
include keyed

/-- A terminal without consumption leaves the wakes or answers a request that lost its binding. -/
theorem applyTerminal_unread
    (same : SameManifests index.wakes (index.completeWake lookup entry).wakes)
    (reads : index.consumption lookup entry = .ok none)
    (bindings : OrderedMap String RequestBinding)
    (forgets : FewerNotes (index.completeWake lookup entry).requestNotes notes) :
    Advances lookup entry index .other
      { index.completeWake lookup entry with
        requestNotes := notes
        requestBindings := bindings } := by
  rcases completeWake_spec lookup entry keyed with
    ⟨kept, -⟩ | ⟨requestId, wake, completion, answers, carried, present, -, made⟩
  · rw [kept] at forgets same ⊢
    exact .ended bindings forgets same fun found _ => .inl found
  · rw [made] at forgets same ⊢
    refine .ended bindings forgets same ?_
    intro wakeId completed item found member
    rw [OrderedMap.get?_set] at found
    split at found
    next here =>
      obtain rfl := Option.some.inj found
      refine .inr ?_
      cases noted : index.requestNotes.get? requestId with
      | some inputs =>
          refine ⟨requestId, inputs, answers, by simp [ParentInputIndex.requestInputs, noted],
            .inr (.inl ⟨OrderedMap.has_eq_true.mpr ⟨_, noted⟩, ?_⟩)⟩
          obtain ⟨carriedId, named, -⟩ := Option.bind_eq_some_iff.mp carried
          exact OrderedMap.has_eq_true.mpr ⟨_, (truthy_eq_some.mp named).1⟩
      | none =>
          have inputs : index.requestInputs requestId = some wake.inputs := by
            simp [ParentInputIndex.requestInputs, noted, carried]
          rcases consumption_eq_none reads answers with unbound | empty
          · exact ⟨requestId, _, answers, inputs, .inl unbound⟩
          · rw [empty _ inputs] at member
            cases member
    · exact .inl found

/-- A consumption is expected for the wake or the notes of the answered request. -/
theorem applyTerminal_read
    (reads : index.consumption lookup entry = .ok (some consumed))
    (bindings : OrderedMap String RequestBinding)
    (forgets : FewerNotes ((index.completeWake lookup entry).expectConsumption entry.id
      (some consumed)).requestNotes notes) :
    Advances lookup entry index
      (if consumed.mode = .nextOwnerTurn then .answered (deliveries consumed.inputs) else .other)
      { (index.completeWake lookup entry).expectConsumption entry.id (some consumed) with
        requestNotes := notes
        requestBindings := bindings } := by
  obtain ⟨answers, inputs, ⟨mode, has, carried⟩ | ⟨mode, carried⟩⟩ := consumption_eq_some reads
  · rcases completeWake_spec lookup entry keyed with
      ⟨-, uncarried⟩ | ⟨requestId, wake, completion, answered, carries, present, terminal, made⟩
    · rw [uncarried _ answers] at carried
      cases carried
    · have request : requestId = consumed.requestId := by
        obtain ⟨_, ended, -⟩ := answers
        obtain ⟨_, again, -⟩ := answered
        exact (Prod.mk.inj (Option.some.inj (again.symm.trans ended))).1
      rw [made] at forgets ⊢
      simp only [ParentInputIndex.expectConsumption, mode, reduceCtorEq, if_false] at forgets ⊢
      refine .completed bindings forgets present terminal answers inputs ?_ mode
      cases noted : index.requestNotes.get? consumed.requestId with
      | some _ => exact .inl ⟨OrderedMap.has_eq_true.mpr ⟨_, noted⟩, has⟩
      | none =>
          rw [request] at carries
          right
          simpa [ParentInputIndex.requestInputs, noted, carries] using inputs.symm
  · rcases completeWake_spec lookup entry keyed with
      ⟨kept, -⟩ | ⟨requestId, wake, completion, answered, carries, -⟩
    · rw [kept] at forgets ⊢
      simp only [ParentInputIndex.expectConsumption, mode, if_true] at forgets ⊢
      refine .answered bindings forgets answers ?_ mode
      simpa [ParentInputIndex.requestInputs, carried] using inputs
    · obtain ⟨_, ended, -⟩ := answers
      obtain ⟨_, again, -⟩ := answered
      obtain rfl := (Prod.mk.inj (Option.some.inj (again.symm.trans ended))).1
      cases carried.symm.trans carries

theorem applyTerminal_spec (unsettled : parentWakeSettlementOf entry = .ok none)
    (applied : index.applyTerminal lookup entry = .ok after) :
    Advances lookup entry index (consumingEvent index lookup entry) after := by
  simp only [ParentInputIndex.applyTerminal, bind_eq_ok, pure_eq_ok] at applied
  obtain ⟨consumed, reads, rfl⟩ := applied
  have same : SameManifests index.wakes (index.completeWake lookup entry).wakes := by
    rcases completeWake_spec lookup entry keyed with ⟨kept, -⟩ | ⟨_, wake, _, -, -, present, -, made⟩
    · rw [kept]
      exact .refl _
    · rw [made]
      exact .set present _
  have read : index.consumption lookup entry = .ok consumed := by
    rcases completeWake_spec lookup entry keyed with ⟨kept, -⟩ | ⟨_, wake, _, -, -, present, -, made⟩
    · rwa [kept] at reads
    · rw [made] at reads same
      rwa [consumption_congr same] at reads
  unfold consumingEvent
  rw [read, unsettled]
  obtain ⟨notes, bindings, ended, forgets⟩ := endRequest_eq
    ((index.completeWake lookup entry).expectConsumption entry.id consumed) entry
  rw [ended]
  cases consumed with
  | none => exact applyTerminal_unread keyed same read bindings forgets
  | some consumed => exact applyTerminal_read keyed read bindings forgets

end

variable {settlement : ParentWakeSettlement}

theorem parentWakeSettlementOf_some
    (stated : parentWakeSettlementOf entry = .ok (some settlement)) :
    ∃ data, entry.body = .custom PARENT_INPUT_SETTLED_CUSTOM_TYPE data := by
  unfold parentWakeSettlementOf at stated
  split at stated
  · cases stated
  next data named => exact ⟨data, customData_eq_some.mp named⟩

variable {binding : ParentInputRequestBinding}

theorem parentInputRequestBindingOf_some
    (stated : parentInputRequestBindingOf entry = .ok (some binding)) :
    ∃ customType data, entry.body = .custom customType data ∧
      customType ≠ PARENT_INPUT_SETTLED_CUSTOM_TYPE := by
  unfold parentInputRequestBindingOf at stated
  split at stated
  next named => exact ⟨_, _, customData_eq_some.mp named, by decide⟩
  next named => exact ⟨_, _, customData_eq_some.mp named, by decide⟩
  · cases stated

theorem parentWakeSettlementOf_none
    (other : customData entry PARENT_INPUT_SETTLED_CUSTOM_TYPE = none) :
    parentWakeSettlementOf entry = .ok none := by
  simp only [parentWakeSettlementOf, other]

theorem startRequest_of_custom {customType : String} {data : Option Json}
    (body : entry.body = .custom customType data) : index.startRequest entry = index := by
  simp only [ParentInputIndex.startRequest, body]

theorem assertNotes_selected {chars : Nat} {inputs : List ParentWakeInput}
    (admitted : index.assertNotes lookup chars inputs = .ok ()) :
    ∀ item ∈ inputs, index.namesPendingInput .nextOwnerTurn item = true := by
  induction inputs generalizing chars with
  | nil => simp
  | cons item items ih =>
      unfold ParentInputIndex.assertNotes at admitted
      split at admitted
      · cases admitted
      · simp only [bind_eq_ok, exists_unit, throwPlainIf_eq_ok, Bool.not_eq_false] at admitted
        obtain ⟨names, -, rest⟩ := admitted
        rw [List.forall_mem_cons]
        exact ⟨names, ih rest⟩

theorem bindRequest_spec (bound : index.bindRequest lookup entry.id (some binding) = .ok after) :
    Advances lookup entry index .other after := by
  cases binding with
  | owner requestId ownerEntryId ownerInputId inputs =>
      simp only [ParentInputIndex.bindRequest, ParentInputIndex.bindOwner, bind_eq_ok,
        exists_unit, throwPlainIf_eq_ok, pure_eq_ok] at bound
      obtain ⟨-, -, notes, rfl⟩ := bound
      exact .ownerBound _ (assertNotes_selected notes)
  | wake requestId wakeId =>
      simp only [ParentInputIndex.bindRequest, ParentInputIndex.bindWake, bind_eq_ok,
        exists_unit, throwPlainIf_eq_ok] at bound
      obtain ⟨admitted, bound⟩ := bound
      split at bound
      · cases bound
      next wake present =>
        obtain rfl := pure_eq_ok.mp bound
        refine .wakeBound _ present (fun settled => admitted (.inr (.inl settled))) ?_
        intro terminalEntryId consumed found
        split at found
        · exact found
        · exact (OrderedMap.get?_of_erase found).1

theorem settleWake_spec (stated : parentWakeSettlementOf entry = .ok (some settlement))
    (settles : index.settleWake (some settlement) = .ok after) :
    ∃ wake, index.wakes.get? settlement.wakeId = some wake ∧
      Advances lookup entry index (.settled (deliveries wake.inputs)) after := by
  unfold ParentInputIndex.settleWake at settles
  split at settles
  next absent => cases absent
  next same =>
    obtain rfl := Option.some.inj same
    split at settles
    next wake present =>
      split at settles
      next completed answer =>
        simp only [bind_eq_ok, exists_unit, throwPlainIf_eq_ok, pure_eq_ok] at settles
        obtain ⟨admitted, rfl⟩ := settles
        exact ⟨wake, present,
          .settled stated present answer fun settled => admitted (.inl settled)⟩
      · cases settles
    · cases settles

theorem consumingEvent_of_other
    (other : ∀ requestId outcome answerId,
      entry.body ≠ .providerRequestTerminal requestId outcome answerId)
    (unsettled : parentWakeSettlementOf entry = .ok none) :
    consumingEvent index lookup entry = .other := by
  have unread : index.consumption lookup entry = .ok none :=
    consumption_of_other (completedTerminal_of_other other)
  simp only [consumingEvent, unread, unsettled]

theorem digestOf_ne_empty {value : Option Json} {text : String}
    (digest : digestOf value = some text) : text ≠ "" := by
  rintro rfl
  simp [digestOf, Option.filter_eq_some_iff] at digest

theorem parentWakeOf_some (opens : parentWakeOf env entry = .ok (some wake)) :
    wake.wakeId ≠ "" ∧ wake.completed = none ∧ ∃ customType content display details,
      entry.body = .customMessage customType content display details := by
  unfold parentWakeOf at opens
  split at opens
  next body =>
    split at opens
    · cases opens
    simp only at opens
    split at opens
    · cases opens
    next wakeId items manifest =>
      simp only [bind_eq_ok, exists_unit, throwPlainIf_eq_ok, pure_eq_ok] at opens
      obtain ⟨inputs, -, -, same⟩ := opens
      obtain rfl := Option.some.inj same
      refine ⟨?_, rfl, _, _, _, _, body⟩
      simp only [Option.bind_eq_bind, Option.bind_eq_some_iff] at manifest
      obtain ⟨value, -, detached, -, id, digest, rest⟩ := manifest
      split at rest
      · split at rest
        · cases rest
        · obtain ⟨rfl, -⟩ := Prod.mk.inj (Option.some.inj rest)
          exact digestOf_ne_empty digest
      · cases rest
  · cases opens

theorem openManifest_spec (opens : parentWakeOf env entry = .ok (some wake))
    (applied : index.openManifest wake = .ok after) : Advances lookup entry index .other after := by
  simp only [ParentInputIndex.openManifest, bind_eq_ok, exists_unit, throwPlainIf_eq_ok,
    pure_eq_ok, not_or, Bool.not_eq_false, Bool.not_eq_true, Option.isSome_eq_false_iff,
    Option.isNone_iff_eq_none, List.all_eq_true] at applied
  obtain ⟨⟨closed, fresh⟩, selected, rfl⟩ := applied
  exact .opened (parentWakeOf_some opens).1 (parentWakeOf_some opens).2.1 closed (OrderedMap.has_eq_false.mp fresh) selected

section

variable (keyed : ∀ {wakeId wake}, index.wakes.get? wakeId = some wake → wake.wakeId = wakeId)
include keyed

/-- Bindings, terminals and settlements. -/
theorem applyRequest_spec {bound answered : ParentInputIndex}
    {binding : Option ParentInputRequestBinding} {settlement : Option ParentWakeSettlement}
    (binds : parentInputRequestBindingOf entry = .ok binding)
    (boundTo : (index.startRequest entry).bindRequest lookup entry.id binding = .ok bound)
    (ends : bound.applyTerminal lookup entry = .ok answered)
    (settles : parentWakeSettlementOf entry = .ok settlement)
    (applied : answered.settleWake settlement = .ok after) :
    Advances lookup entry index (consumingEvent index lookup entry) after := by
  by_cases terminal : ∃ requestId outcome answerId,
      entry.body = .providerRequestTerminal requestId outcome answerId
  · obtain ⟨requestId, outcome, answerId, body⟩ := terminal
    have unbound : parentInputRequestBindingOf entry = .ok none := by
      simp [parentInputRequestBindingOf, customData, body]
    have unsettled : parentWakeSettlementOf entry = .ok none :=
      parentWakeSettlementOf_none (by simp [customData, body])
    obtain rfl := Except.ok.inj (unbound.symm.trans binds)
    obtain rfl := Except.ok.inj (unsettled.symm.trans settles)
    obtain rfl := Except.ok.inj applied
    have same : bound = index := by
      have started : index.startRequest entry = index := by
        simp only [ParentInputIndex.startRequest, body]
      rw [started] at boundTo
      exact (Except.ok.inj boundTo).symm
    rw [same] at ends
    exact applyTerminal_spec keyed unsettled ends
  · have other : ∀ requestId outcome answerId,
        entry.body ≠ .providerRequestTerminal requestId outcome answerId := by
      intro requestId outcome answerId body
      exact terminal ⟨_, _, _, body⟩
    rw [applyTerminal_of_other other] at ends
    obtain rfl := Except.ok.inj ends
    cases settlement with
    | none =>
        obtain rfl := Except.ok.inj applied
        rw [consumingEvent_of_other other settles]
        cases binding with
        | none =>
            obtain rfl := Except.ok.inj boundTo
            exact .started
        | some binding =>
            obtain ⟨customType, data, body, -⟩ := parentInputRequestBindingOf_some binds
            rw [startRequest_of_custom body] at boundTo
            exact bindRequest_spec boundTo
    | some settlement =>
        obtain ⟨data, body⟩ := parentWakeSettlementOf_some settles
        have unbound : binding = none := by
          cases binding with
          | none => rfl
          | some binding =>
              obtain ⟨customType, other, named, apart⟩ := parentInputRequestBindingOf_some binds
              obtain ⟨rfl, -⟩ := EntryBody.custom.inj (named.symm.trans body)
              exact absurd rfl apart
        rw [unbound, startRequest_of_custom body] at boundTo
        obtain rfl := Except.ok.inj boundTo
        obtain ⟨wake, present, advances⟩ := settleWake_spec settles applied
        have unread : index.consumption lookup entry = .ok none :=
          consumption_of_other (completedTerminal_of_other other)
        simp only [consumingEvent, unread, settles, present]
        exact advances

/-- Applying an entry advances the index by the entry's event. -/
theorem apply_spec (applied : index.apply env lookup entry = .ok after) :
    ∃ stated, Advances lookup entry (index.dropAwaited stated)
        (ledgerEvent env index lookup entry) after ∧
      (stated = none ∨ ∃ ids, ledgerEvent env index lookup entry = .recorded ids) := by
  simp only [ParentInputIndex.apply, bind_eq_ok] at applied
  obtain ⟨stated, reads, applied⟩ := applied
  refine ⟨stated, ?_⟩
  unfold ledgerEvent
  rw [reads]
  cases stated with
  | some consumption =>
      simp only [ParentInputIndex.acceptConsumption, bind_eq_ok, exists_unit,
        throwPlainIf_eq_ok, pure_eq_ok, not_not] at applied
      obtain ⟨expected, admitted, rfl⟩ := applied
      refine ⟨.recorded expected fun mode => ?_, .inr ⟨_, rfl⟩⟩
      by_contra opened
      exact admitted ⟨mode, Option.ne_none_iff_isSome.mp opened⟩
  | none =>
      refine ⟨?_, .inl rfl⟩
      simp only [bind_eq_ok] at applied
      obtain ⟨skip, skips, applied⟩ := applied
      rw [skips]
      cases skip with
      | some skip =>
          simp only [ParentInputIndex.skipInput, bind_eq_ok, exists_unit, throwPlainIf_eq_ok,
            pure_eq_ok, not_or, Bool.not_eq_false, Option.any_eq_true] at applied
          obtain ⟨⟨⟨held, present, names⟩, -⟩, rfl⟩ := applied
          simp only [ParentInputIndex.namesHeldInput, decide_eq_true_eq] at names
          exact .skipped present names.1
      | none =>
          simp only [bind_eq_ok] at applied
          obtain ⟨input, accepts, applied⟩ := applied
          rw [accepts]
          cases input with
          | some input =>
              simp only [ParentInputIndex.acceptInput, bind_eq_ok, exists_unit,
                throwPlainIf_eq_ok, pure_eq_ok, Bool.not_eq_true] at applied
              obtain ⟨fresh, -, rfl⟩ := applied
              exact .accepted (OrderedMap.has_eq_false.mp fresh)
          | none =>
              simp only [bind_eq_ok] at applied
              obtain ⟨wake, opens, applied⟩ := applied
              cases wake with
              | some wake =>
                  obtain ⟨-, -, customType, content, display, details, body⟩ := parentWakeOf_some opens
                  have unsettled : parentWakeSettlementOf entry = .ok none :=
                    parentWakeSettlementOf_none (by simp [customData, body])
                  rw [consumingEvent_of_other (by simp [body]) unsettled]
                  exact openManifest_spec opens applied
              | none =>
                  simp only [bind_eq_ok] at applied
                  obtain ⟨binding, binds, bound, boundTo, answered, ends, settlement, settles,
                    applied⟩ := applied
                  exact applyRequest_spec keyed binds boundTo ends settles applied

end

end PiAdaptative.Session
