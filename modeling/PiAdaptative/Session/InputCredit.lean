import PiAdaptative.Session.PendingInputs

/-!
# Credit for parent inputs

Consumption records follow what terminals claimed: as long as no entry misplaces credit, inputs are
consumed once, recorded once and never lost.  Two requests bound to one note before either is
answered are each credited with it.
-/

namespace PiAdaptative.Session

variable {env : Platform} {lookup : Lookup} {entry : SessionEntry}
variable {index after : ParentInputIndex} {deliveryId : String}
variable {events : List LedgerEvent} {event : LedgerEvent}

theorem SameManifests.retained {wakes next : OrderedMap String ParentInputWake} {wakeId : String}
    {wake : ParentInputWake} (same : SameManifests wakes next)
    (found : wakes.get? wakeId = some wake) :
    ∃ later, next.get? wakeId = some later ∧ later.inputs = wake.inputs := by
  obtain ⟨later, present, -, inputs⟩ := same.symm.get? found
  exact ⟨later, present, inputs⟩

/-- Consumption records and their expectations follow the events. -/
structure ClaimsFollow (events : List LedgerEvent) (index : ParentInputIndex) : Prop where
  /-- Expected consumptions name accepted deliveries that were neither skipped nor recorded. -/
  claimed : ∀ {terminalId consumed deliveryId},
    index.expectedConsumptions.get? terminalId = some consumed →
      deliveryId ∈ deliveries consumed.inputs →
        .accepted deliveryId ∈ events ∧ .skipped deliveryId ∉ events ∧
          ∀ event ∈ events, ¬event.Records deliveryId
  /-- Expected notes are not pending. -/
  taken : ∀ {terminalId consumed deliveryId},
    index.expectedConsumptions.get? terminalId = some consumed →
      consumed.mode = .nextOwnerTurn → deliveryId ∈ deliveries consumed.inputs →
        index.pending.get? deliveryId = none
  selected : ∀ {terminalId consumed}, index.expectedConsumptions.get? terminalId = some consumed →
    consumed.mode = .turn →
      ∃ wakeId wake, index.wakes.get? wakeId = some wake ∧ wake.inputs = consumed.inputs
  /-- Two terminals never expect one delivery. -/
  apart : ∀ {terminalId consumed other otherConsumed deliveryId},
    index.expectedConsumptions.get? terminalId = some consumed →
      index.expectedConsumptions.get? other = some otherConsumed →
        deliveryId ∈ deliveries consumed.inputs → deliveryId ∈ deliveries otherConsumed.inputs →
          terminalId = other
  /-- Recorded deliveries were accepted, are not pending and were not skipped. -/
  recorded : ∀ {event deliveryId}, event ∈ events → event.Records deliveryId →
    .accepted deliveryId ∈ events ∧ .skipped deliveryId ∉ events ∧
      index.pending.get? deliveryId = none
  recordedOnce : ∀ deliveryId, events.Pairwise fun event later =>
    ¬(event.Records deliveryId ∧ later.Records deliveryId)

theorem claimsFollow_initial : ClaimsFollow [] .initial where
  claimed found := by simp [ParentInputIndex.initial] at found
  taken found := by simp [ParentInputIndex.initial] at found
  selected found := by simp [ParentInputIndex.initial] at found
  apart found := by simp [ParentInputIndex.initial] at found
  recorded member := by simp at member
  recordedOnce := by simp

theorem ClaimsFollow.unclaimed (claims : ClaimsFollow events index)
    (pends : PendingFollows events index.accepted index.pending)
    (present : (index.pending.get? deliveryId).isSome = true) :
    .accepted deliveryId ∈ events ∧ .skipped deliveryId ∉ events ∧
      ∀ event ∈ events, ¬event.Records deliveryId := by
  obtain ⟨known, unremoved⟩ := pends.held.mp present
  refine ⟨known, fun skipped => unremoved _ skipped rfl, fun event member records => ?_⟩
  obtain ⟨-, -, absent⟩ := claims.recorded member records
  rw [absent] at present
  cases present

/-- An event that neither skips nor records, while expectations do not grow. -/
theorem ClaimsFollow.idle (claims : ClaimsFollow events index)
    (unskipped : ∀ deliveryId, event ≠ .skipped deliveryId)
    (unrecorded : ∀ deliveryId, ¬event.Records deliveryId)
    (fewer : ∀ {terminalId consumed}, after.expectedConsumptions.get? terminalId = some consumed →
      index.expectedConsumptions.get? terminalId = some consumed)
    (gone : ∀ {deliveryId}, .accepted deliveryId ∈ events →
      index.pending.get? deliveryId = none → after.pending.get? deliveryId = none)
    (manifests : ∀ {wakeId wake}, index.wakes.get? wakeId = some wake →
      ∃ next, after.wakes.get? wakeId = some next ∧ next.inputs = wake.inputs) :
    ClaimsFollow (events ++ [event]) after := by
  have stillUnskipped {deliveryId : String} (before : .skipped deliveryId ∉ events) :
      .skipped deliveryId ∉ events ++ [event] := by
    simpa [before] using (unskipped deliveryId).symm
  refine ⟨?_, ?_, ?_, ?_, ?_, ?_⟩
  · intro terminalId consumed deliveryId found member
    obtain ⟨known, notSkipped, notRecorded⟩ := claims.claimed (fewer found) member
    refine ⟨List.mem_append_left _ known, stillUnskipped notSkipped, ?_⟩
    simpa [or_imp, forall_and] using ⟨notRecorded, unrecorded deliveryId⟩
  · intro terminalId consumed deliveryId found mode member
    exact gone (claims.claimed (fewer found) member).1 (claims.taken (fewer found) mode member)
  · intro terminalId consumed found mode
    obtain ⟨wakeId, wake, present, same⟩ := claims.selected (fewer found) mode
    obtain ⟨next, nextPresent, sameNext⟩ := manifests present
    exact ⟨wakeId, next, nextPresent, sameNext.trans same⟩
  · intro terminalId consumed other otherConsumed deliveryId found otherFound
    exact claims.apart (fewer found) (fewer otherFound)
  · intro earlier deliveryId member records
    rcases List.mem_append.mp member with before | last
    · obtain ⟨known, notSkipped, absent⟩ := claims.recorded before records
      exact ⟨List.mem_append_left _ known, stillUnskipped notSkipped, gone known absent⟩
    · obtain rfl := List.mem_singleton.mp last
      exact absurd records (unrecorded _)
  · intro deliveryId
    rw [List.pairwise_append]
    refine ⟨claims.recordedOnce deliveryId, List.pairwise_singleton _ _, ?_⟩
    rintro earlier - last member ⟨-, records⟩
    obtain rfl := List.mem_singleton.mp member
    exact unrecorded _ records

/-- A held input that is skipped is not expected. -/
theorem ClaimsFollow.skip {held : PersistedParentInput} (claims : ClaimsFollow events index)
    (follows : WakesFollow index)
    (present : index.pending.get? deliveryId = some held)
    (mode : held.metadata.mode = .nextOwnerTurn) :
    ClaimsFollow (events ++ [.skipped deliveryId])
      { index with
        pending := index.pending.erase deliveryId
        skipped := index.skipped ++ [deliveryId] } := by
  have unexpected {terminalId : String} {consumed : ParentInputConsumption}
      (found : index.expectedConsumptions.get? terminalId = some consumed) :
      deliveryId ∉ deliveries consumed.inputs := by
    intro member
    cases expects : consumed.mode with
    | nextOwnerTurn => cases present.symm.trans (claims.taken found expects member)
    | turn =>
        obtain ⟨wakeId, wake, filed, same⟩ := claims.selected found expects
        rw [← same] at member
        obtain ⟨item, selected, rfl⟩ := List.mem_map.mp member
        by_cases settled : wakeId ∈ index.settled
        · cases present.symm.trans (follows.settled settled filed selected).1
        · obtain ⟨input, pending, turn⟩ := follows.current settled filed selected
          obtain rfl := Option.some.inj (present.symm.trans pending)
          cases mode.symm.trans turn
  refine ⟨?_, ?_, claims.selected, claims.apart, ?_, ?_⟩
  · intro terminalId consumed other found member
    obtain ⟨known, notSkipped, notRecorded⟩ := claims.claimed found member
    have apart : other ≠ deliveryId := by
      rintro rfl
      exact unexpected found member
    refine ⟨List.mem_append_left _ known, by simp [notSkipped, apart], ?_⟩
    simpa [or_imp, forall_and, LedgerEvent.Records] using notRecorded
  · intro terminalId consumed other found expects member
    rw [OrderedMap.get?_erase, claims.taken found expects member, ite_self]
  · intro earlier other member records
    rcases List.mem_append.mp member with before | last
    · obtain ⟨known, notSkipped, absent⟩ := claims.recorded before records
      have apart : other ≠ deliveryId := by
        rintro rfl
        cases present.symm.trans absent
      exact ⟨List.mem_append_left _ known, by simp [notSkipped, apart],
        by rw [OrderedMap.get?_erase, absent, ite_self]⟩
    · obtain rfl := List.mem_singleton.mp last
      exact records.elim
  · intro other
    rw [List.pairwise_append]
    refine ⟨claims.recordedOnce other, List.pairwise_singleton _ _, ?_⟩
    rintro earlier - last member ⟨-, records⟩
    obtain rfl := List.mem_singleton.mp member
    exact records

variable {consumed : ParentInputConsumption} {terminalId : String}

/-- The inputs of an expected consumption that may be recorded are not pending. -/
theorem ClaimsFollow.released (claims : ClaimsFollow events index) (follows : WakesFollow index)
    (expected : index.expectedConsumptions.get? terminalId = some consumed)
    (closed : consumed.mode = .turn → index.openWake = none)
    (member : deliveryId ∈ deliveries consumed.inputs) : index.pending.get? deliveryId = none := by
  cases mode : consumed.mode with
  | nextOwnerTurn => exact claims.taken expected mode member
  | turn =>
      obtain ⟨wakeId, wake, filed, same⟩ := claims.selected expected mode
      rw [← same] at member
      obtain ⟨item, selected, rfl⟩ := List.mem_map.mp member
      by_cases settled : wakeId ∈ index.settled
      · exact (follows.settled settled filed selected).1
      · cases (closed mode).symm.trans (follows.openWake filed settled)

/-- An expected consumption is recorded. -/
theorem ClaimsFollow.record (claims : ClaimsFollow events index) (follows : WakesFollow index)
    (expected : index.expectedConsumptions.get? consumed.terminalEntryId = some consumed)
    (closed : consumed.mode = .turn → index.openWake = none) :
    ClaimsFollow (events ++ [.recorded (deliveries consumed.inputs)])
      { index with
        expectedConsumptions := index.expectedConsumptions.erase consumed.terminalEntryId } := by
  have remaining {terminalId : String} {standing : ParentInputConsumption}
      (found : (index.expectedConsumptions.erase consumed.terminalEntryId).get? terminalId =
        some standing) :
      index.expectedConsumptions.get? terminalId = some standing ∧
        terminalId ≠ consumed.terminalEntryId :=
    OrderedMap.get?_of_erase found
  refine ⟨?_, ?_, ?_, ?_, ?_, ?_⟩
  · intro terminalId standing deliveryId found member
    obtain ⟨present, other⟩ := remaining found
    obtain ⟨known, notSkipped, notRecorded⟩ := claims.claimed present member
    refine ⟨List.mem_append_left _ known, by simp [notSkipped], ?_⟩
    simp only [List.mem_append, List.mem_singleton, or_imp, forall_and, forall_eq]
    exact ⟨notRecorded, fun recorded => other (claims.apart present expected member recorded)⟩
  · intro terminalId standing deliveryId found
    exact claims.taken (remaining found).1
  · intro terminalId standing found
    exact claims.selected (remaining found).1
  · intro terminalId standing other otherStanding deliveryId found otherFound
    exact claims.apart (remaining found).1 (remaining otherFound).1
  · intro earlier deliveryId member records
    rcases List.mem_append.mp member with before | last
    · obtain ⟨known, notSkipped, absent⟩ := claims.recorded before records
      exact ⟨List.mem_append_left _ known, by simp [notSkipped], absent⟩
    · obtain rfl := List.mem_singleton.mp last
      obtain ⟨known, notSkipped, -⟩ := claims.claimed expected records
      exact ⟨List.mem_append_left _ known, by simp [notSkipped],
        claims.released follows expected closed records⟩
  · intro deliveryId
    rw [List.pairwise_append]
    refine ⟨claims.recordedOnce deliveryId, List.pairwise_singleton _ _, ?_⟩
    rintro earlier before last member ⟨records, again⟩
    obtain rfl := List.mem_singleton.mp member
    exact (claims.claimed expected again).2.2 earlier before records

/-- A consumption of unclaimed inputs is expected. -/
theorem ClaimsFollow.expect
    (claims : ClaimsFollow events index)
    (unclaimed : ∀ deliveryId ∈ deliveries consumed.inputs,
      (.accepted deliveryId ∈ events ∧ .skipped deliveryId ∉ events ∧
        ∀ event ∈ events, ¬event.Records deliveryId) ∧ ¬Expects index deliveryId)
    (taken : consumed.mode = .nextOwnerTurn → ∀ deliveryId ∈ deliveries consumed.inputs,
      index.pending.get? deliveryId = none)
    (carried : consumed.mode = .turn →
      ∃ wakeId wake, index.wakes.get? wakeId = some wake ∧ wake.inputs = consumed.inputs) :
    ClaimsFollow events
      { index with
        expectedConsumptions := index.expectedConsumptions.set terminalId consumed } := by
  refine ⟨?_, ?_, ?_, ?_, claims.recorded, claims.recordedOnce⟩
  · intro other standing deliveryId found member
    rw [OrderedMap.get?_set] at found
    split at found
    · obtain rfl := Option.some.inj found
      exact (unclaimed _ member).1
    · exact claims.claimed found member
  · intro other standing deliveryId found mode member
    rw [OrderedMap.get?_set] at found
    split at found
    · obtain rfl := Option.some.inj found
      exact taken mode _ member
    · exact claims.taken found mode member
  · intro other standing found mode
    rw [OrderedMap.get?_set] at found
    split at found
    · obtain rfl := Option.some.inj found
      exact carried mode
    · exact claims.selected found mode
  · intro first standing second otherStanding deliveryId found otherFound member otherMember
    rw [OrderedMap.get?_set] at found otherFound
    split at found <;> split at otherFound
    next here there => exact here.trans there.symm
    · obtain rfl := Option.some.inj found
      exact absurd ⟨_, _, otherFound, otherMember⟩ (unclaimed _ member).2
    · obtain rfl := Option.some.inj otherFound
      exact absurd ⟨_, _, found, member⟩ (unclaimed _ otherMember).2
    · exact claims.apart found otherFound member otherMember

variable {inputs : List ParentWakeInput} {requestId : String}

theorem pending_of_placed (placed : ¬MisplacesCredit index lookup entry)
    (answers : Answers lookup entry requestId)
    (carries : index.requestInputs requestId = some inputs)
    (member : deliveryId ∈ deliveries inputs) :
    (index.pending.get? deliveryId).isSome = true ∧ ¬Expects index deliveryId := by
  refine ⟨?_, fun claimed => placed
    ⟨_, _, answers, carries, .inr (.inr (.inr ⟨deliveryId, member, .inr claimed⟩))⟩⟩
  by_contra absent
  rw [Bool.not_eq_true, Option.isSome_eq_false_iff, Option.isNone_iff_eq_none] at absent
  exact placed ⟨_, _, answers, carries, .inr (.inr (.inr ⟨deliveryId, member, .inl absent⟩))⟩

theorem unclaimed_append {named : LedgerEvent} (quiet : named ≠ .skipped deliveryId)
    (unrecorded : ¬named.Records deliveryId)
    (before : .accepted deliveryId ∈ events ∧ .skipped deliveryId ∉ events ∧
      ∀ event ∈ events, ¬event.Records deliveryId) :
    .accepted deliveryId ∈ events ++ [named] ∧ .skipped deliveryId ∉ events ++ [named] ∧
      ∀ event ∈ events ++ [named], ¬event.Records deliveryId := by
  obtain ⟨known, notSkipped, notRecorded⟩ := before
  refine ⟨List.mem_append_left _ known, by simpa [notSkipped] using quiet.symm, ?_⟩
  simpa [or_imp, forall_and] using ⟨notRecorded, unrecorded⟩

/-- Expected consumptions follow the entry unless it misplaces credit. -/
theorem ClaimsFollow.advance (claims : ClaimsFollow events index) (follows : WakesFollow index)
    (pends : PendingFollows events index.accepted index.pending)
    (advances : Advances lookup entry index event after)
    (placed : ¬MisplacesCredit index lookup entry) : ClaimsFollow (events ++ [event]) after := by
  cases advances with
  | recorded expected closed => exact claims.record follows expected closed
  | skipped present mode => exact claims.skip follows present mode
  | accepted fresh =>
      refine claims.idle (by rintro _ ⟨⟩) (fun _ => id) id ?_ fun found => ⟨_, found, rfl⟩
      intro other known absent
      rw [OrderedMap.get?_set, if_neg]
      · exact absent
      · rintro rfl
        rw [← pends.known, fresh] at known
        cases known
  | opened named unanswered closed fresh selected =>
      refine claims.idle (by rintro _ ⟨⟩) (fun _ => id) id (fun _ => id) ?_
      intro wakeId earlier found
      refine ⟨earlier, ?_, rfl⟩
      rw [OrderedMap.get?_set, if_neg]
      · exact found
      · rintro rfl
        cases fresh.symm.trans found
  | started =>
      unfold ParentInputIndex.startRequest
      split <;>
        exact claims.idle (by rintro _ ⟨⟩) (fun _ => id) id (fun _ => id)
          fun found => ⟨_, found, rfl⟩
  | wakeBound bindings present unsettled fewer =>
      refine claims.idle (by rintro _ ⟨⟩) (fun _ => id) fewer (fun _ => id) ?_
      exact (SameManifests.set present none).retained
  | ended bindings forgets same unproven =>
      exact claims.idle (by rintro _ ⟨⟩) (fun _ => id) id (fun _ => id) same.retained
  | @completed wake consumed completion notes bindings forgets present terminal answers inputs
      carried mode =>
      have idle : ClaimsFollow (events ++ [.other])
          { index with
            wakes := index.wakes.set wake.wakeId { wake with completed := some completion }
            requestNotes := notes
            requestBindings := bindings } :=
        claims.idle (by rintro _ ⟨⟩) (fun _ => id) id (fun _ => id)
          (SameManifests.set present (some completion)).retained
      refine idle.expect ?_ (fun owner => by cases mode.symm.trans owner) fun _ => ?_
      · intro deliveryId member
        obtain ⟨pending, unexpected⟩ := pending_of_placed placed answers inputs member
        exact ⟨unclaimed_append (by rintro ⟨⟩) id (claims.unclaimed pends pending), unexpected⟩
      · rcases carried with both | same
        · exact absurd ⟨_, _, answers, inputs, .inr (.inl both)⟩ placed
        · exact ⟨_, _, OrderedMap.get?_set_self _ _ _, same.symm⟩
  | @answered consumed notes bindings forgets answers inputs mode =>
      have carries : index.requestInputs consumed.requestId = some consumed.inputs := by
        simp [ParentInputIndex.requestInputs, inputs]
      have idle : ClaimsFollow (events ++ [.answered (deliveries consumed.inputs)])
          { index with
            pending := consumed.inputs.foldl (fun pending input => pending.erase input.deliveryId)
              index.pending
            awaitingImmediateConsumption := some entry.id
            requestNotes := notes
            requestBindings := bindings } :=
        claims.idle (by rintro _ ⟨⟩) (fun _ => id) id
          (fun _ absent => by rw [get?_foldl_erase, absent, ite_self])
          fun found => ⟨_, found, rfl⟩
      refine idle.expect ?_ ?_ fun turn => by cases mode.symm.trans turn
      · intro deliveryId member
        obtain ⟨pending, unexpected⟩ := pending_of_placed placed answers carries member
        exact ⟨unclaimed_append (by rintro ⟨⟩) id (claims.unclaimed pends pending), unexpected⟩
      · intro _ deliveryId member
        rw [get?_foldl_erase, if_pos member]
  | settled stated present answer unsettled =>
      exact claims.idle (by rintro _ ⟨⟩) (fun _ => id) id
        (fun _ absent => by rw [get?_foldl_erase, absent, ite_self])
        fun found => ⟨_, found, rfl⟩
  | ownerBound | kept =>
      exact claims.idle (by rintro _ ⟨⟩) (fun _ => id) id (fun _ => id)
        fun found => ⟨_, found, rfl⟩

/-- The answer of a wake that is not settled left an expected consumption of its inputs. -/
structure WakesProven (index : ParentInputIndex) : Prop where
  proven : ∀ {wakeId wake completion item}, index.wakes.get? wakeId = some wake →
    wakeId ∉ index.settled → wake.completed = some completion → item ∈ wake.inputs →
      ∃ consumed, index.expectedConsumptions.get? completion.terminalEntryId = some consumed ∧
        consumed.inputs = wake.inputs ∧ consumed.mode = .turn
  /-- That consumption is not the one that must be recorded next. -/
  unawaited : ∀ {terminalId wakeId wake completion item},
    index.awaitingImmediateConsumption = some terminalId → index.wakes.get? wakeId = some wake →
      wakeId ∉ index.settled → wake.completed = some completion → item ∈ wake.inputs →
        completion.terminalEntryId ≠ terminalId

theorem wakesProven_initial : WakesProven .initial where
  proven found := by simp [ParentInputIndex.initial] at found
  unawaited awaited := by simp [ParentInputIndex.initial] at awaited

/-- An unsettled wake keeps its answer and its expected consumption. -/
theorem WakesProven.keep (proofs : WakesProven index)
    (wakes : ∀ {wakeId wake completion item}, after.wakes.get? wakeId = some wake →
      wakeId ∉ after.settled → wake.completed = some completion → item ∈ wake.inputs →
        index.wakes.get? wakeId = some wake ∧ wakeId ∉ index.settled)
    (expected : ∀ {wakeId wake completion consumed}, index.wakes.get? wakeId = some wake →
      wakeId ∉ index.settled → wake.completed = some completion → consumed.mode = .turn →
        index.expectedConsumptions.get? completion.terminalEntryId = some consumed →
          after.expectedConsumptions.get? completion.terminalEntryId = some consumed)
    (unawaited : ∀ {terminalId}, after.awaitingImmediateConsumption = some terminalId →
      index.expectedConsumptions.get? terminalId = none) : WakesProven after := by
  refine ⟨?_, ?_⟩
  · intro wakeId wake completion item found unsettled answer member
    obtain ⟨before, standing⟩ := wakes found unsettled answer member
    obtain ⟨consumed, present, inputs, mode⟩ := proofs.proven before standing answer member
    exact ⟨consumed, expected before standing answer mode present, inputs, mode⟩
  · intro terminalId wakeId wake completion item awaited found unsettled answer member
    obtain ⟨before, standing⟩ := wakes found unsettled answer member
    obtain ⟨consumed, present, -⟩ := proofs.proven before standing answer member
    rintro rfl
    cases (unawaited awaited).symm.trans present

theorem wakesProven_of_unanswered
    (unanswered : ∀ {wakeId wake}, index.wakes.get? wakeId = some wake →
      wakeId ∉ index.settled → wake.completed = none) : WakesProven index where
  proven found unsettled answer := nomatch (unanswered found unsettled).symm.trans answer
  unawaited _ found unsettled answer := nomatch (unanswered found unsettled).symm.trans answer

/-- A dropped consumption is not that of an unsettled wake. -/
theorem WakesProven.dropAwaited (proofs : WakesProven index)
    (stated : Option ParentInputConsumption) : WakesProven (index.dropAwaited stated) := by
  refine ⟨?_, fun awaited => nomatch awaited⟩
  intro wakeId wake completion item found unsettled answer member
  obtain ⟨consumed, present, rest⟩ := proofs.proven found unsettled answer member
  refine ⟨consumed, ?_, rest⟩
  unfold ParentInputIndex.dropAwaited
  split
  · exact present
  next terminalId awaited =>
    split
    · exact present
    · rw [OrderedMap.get?_erase, if_neg]
      · exact present
      · exact proofs.unawaited (truthy_eq_some.mp awaited).1 found unsettled answer member

theorem unexpected_of_placed (placed : ¬MisplacesCredit index lookup entry)
    (answers : Answers lookup entry requestId)
    (carries : index.requestInputs requestId = some inputs) :
    index.expectedConsumptions.get? entry.id = none := by
  rw [← OrderedMap.has_eq_false, ← Bool.not_eq_true]
  intro expected
  exact placed ⟨_, _, answers, carries, .inr (.inr (.inl expected))⟩

/-- An answer proves the wake it completes. -/
theorem WakesProven.complete {wake : ParentInputWake}
    {completion : WakeCompletion} {notes : OrderedMap String (List ParentWakeInput)}
    (proofs : WakesProven index) (bindings : OrderedMap String RequestBinding)
    (terminal : completion.terminalEntryId = entry.id)
    (answers : Answers lookup entry consumed.requestId)
    (inputs : index.requestInputs consumed.requestId = some consumed.inputs)
    (carried : index.requestNotes.has consumed.requestId = true ∧
      index.requestWakes.has consumed.requestId = true ∨ consumed.inputs = wake.inputs)
    (mode : consumed.mode = .turn)
    (quiet : ∀ {terminalId}, index.awaitingImmediateConsumption ≠ some terminalId)
    (placed : ¬MisplacesCredit index lookup entry) :
    WakesProven
      { index with
        wakes := index.wakes.set wake.wakeId { wake with completed := some completion }
        expectedConsumptions := index.expectedConsumptions.set entry.id consumed
        requestNotes := notes
        requestBindings := bindings } := by
  have fresh := unexpected_of_placed placed answers inputs
  have same : consumed.inputs = wake.inputs :=
    carried.resolve_left fun both => placed ⟨_, _, answers, inputs, .inr (.inl both)⟩
  refine ⟨?_, fun awaited => absurd awaited quiet⟩
  intro wakeId other answer item found unsettled answered member
  rw [OrderedMap.get?_set] at found
  split at found
  · obtain rfl := Option.some.inj found
    obtain rfl := Option.some.inj answered
    refine ⟨consumed, ?_, same, mode⟩
    rw [terminal, OrderedMap.get?_set_self]
  · obtain ⟨standing, expected, rest⟩ := proofs.proven found unsettled answered member
    refine ⟨standing, ?_, rest⟩
    rw [OrderedMap.get?_set, if_neg]
    · exact expected
    · intro reused
      rw [reused, fresh] at expected
      cases expected

/-- Unsettled wakes stay proven unless the entry misplaces credit. -/
theorem WakesProven.advance (proofs : WakesProven index) (follows : WakesFollow index)
    (unawaited : index.awaitingImmediateConsumption = none)
    (advances : Advances lookup entry index event after)
    (placed : ¬MisplacesCredit index lookup entry) : WakesProven after := by
  have quiet {terminalId : String} (awaited : index.awaitingImmediateConsumption = some terminalId) :
      index.expectedConsumptions.get? terminalId = none :=
    nomatch unawaited.symm.trans awaited
  cases advances with
  | @recorded consumed expected closed =>
      refine proofs.keep (fun found unsettled _ _ => ⟨found, unsettled⟩) ?_ quiet
      intro wakeId wake completion standing found unsettled answer mode present
      rw [OrderedMap.get?_erase, if_neg]
      · exact present
      · intro same
        rw [same, expected] at present
        obtain rfl := Option.some.inj present
        cases (closed mode).symm.trans (follows.openWake found unsettled)
  | @opened wake named unanswered closed fresh selected =>
      refine proofs.keep ?_ (fun _ _ _ _ => id) quiet
      intro wakeId other completion item found unsettled answer member
      rw [OrderedMap.get?_set] at found
      split at found
      · obtain rfl := Option.some.inj found
        cases unanswered.symm.trans answer
      · exact ⟨found, unsettled⟩
  | started =>
      unfold ParentInputIndex.startRequest
      split
      · exact proofs.keep (fun found unsettled _ _ => ⟨found, unsettled⟩) (fun _ _ _ _ => id) quiet
      · exact proofs
  | @wakeBound requestId wakeId wake expected bindings present unsettled fewer =>
      refine wakesProven_of_unanswered ?_
      intro other later found standing
      rw [OrderedMap.get?_set] at found
      split at found
      · obtain rfl := Option.some.inj found
        rfl
      next apart => exact absurd (follows.unique found standing present unsettled) apart
  | ended bindings forgets same unproven =>
      refine proofs.keep ?_ (fun _ _ _ _ => id) quiet
      intro wakeId wake completion item found unsettled answer member
      exact ⟨(unproven found member).resolve_right placed, unsettled⟩
  | completed bindings forgets present terminal answers inputs carried mode =>
      exact proofs.complete bindings terminal answers inputs carried mode (by simp [unawaited])
        placed
  | @answered consumed notes bindings forgets answers inputs mode =>
      have carries : index.requestInputs consumed.requestId = some consumed.inputs := by
        simp [ParentInputIndex.requestInputs, inputs]
      have fresh := unexpected_of_placed placed answers carries
      refine proofs.keep (fun found unsettled _ _ => ⟨found, unsettled⟩) ?_ ?_
      · intro wakeId wake completion standing found unsettled answer mode present
        rw [OrderedMap.get?_set, if_neg]
        · exact present
        · intro same
          rw [same, fresh] at present
          cases present
      · intro terminalId awaited
        obtain rfl := Option.some.inj awaited
        exact fresh
  | settled stated present answer unsettled =>
      refine wakesProven_of_unanswered ?_
      intro other later found standing
      refine absurd ?_ standing
      by_cases before : other ∈ index.settled
      · exact List.mem_append_left _ before
      · rw [follows.keyed present]
        simp [follows.unique found before present unsettled]
  | skipped | accepted | ownerBound | kept =>
      exact proofs.keep (fun found unsettled _ _ => ⟨found, unsettled⟩) (fun _ _ _ _ => id) quiet

structure CreditFollows (events : List LedgerEvent) (index : ParentInputIndex) : Prop where
  pends : PendingFollows events index.accepted index.pending
  follows : WakesFollow index
  claims : ClaimsFollow events index
  proofs : WakesProven index

variable {stated : Option ParentInputConsumption}

theorem dropAwaited_expected
    (found : (index.dropAwaited stated).expectedConsumptions.get? terminalId = some consumed) :
    index.expectedConsumptions.get? terminalId = some consumed := by
  unfold ParentInputIndex.dropAwaited at found
  split at found
  · exact found
  · split at found
    · exact found
    · exact (OrderedMap.get?_of_erase found).1

theorem CreditFollows.dropAwaited (credit : CreditFollows events index)
    (stated : Option ParentInputConsumption) :
    CreditFollows events (index.dropAwaited stated) where
  pends := credit.pends
  follows := ⟨credit.follows.keyed, credit.follows.standing, credit.follows.filed,
    credit.follows.current, credit.follows.settled, credit.follows.notes⟩
  claims := ⟨fun found => credit.claims.claimed (dropAwaited_expected found),
    fun found => credit.claims.taken (dropAwaited_expected found),
    fun found => credit.claims.selected (dropAwaited_expected found),
    fun found other => credit.claims.apart (dropAwaited_expected found)
      (dropAwaited_expected other),
    credit.claims.recorded, credit.claims.recordedOnce⟩
  proofs := credit.proofs.dropAwaited stated

theorem misplacesCredit_of_dropAwaited
    (misplaced : MisplacesCredit (index.dropAwaited stated) lookup entry) :
    MisplacesCredit index lookup entry := by
  obtain ⟨requestId, inputs, answers, carries, unbound | both | reused | named⟩ := misplaced
  · exact ⟨requestId, inputs, answers, carries, .inl unbound⟩
  · exact ⟨requestId, inputs, answers, carries, .inr (.inl both)⟩
  · obtain ⟨consumed, found⟩ := OrderedMap.has_eq_true.mp reused
    exact ⟨requestId, inputs, answers, carries,
      .inr (.inr (.inl (OrderedMap.has_eq_true.mpr ⟨consumed, dropAwaited_expected found⟩)))⟩
  · obtain ⟨deliveryId, member, gone | ⟨terminalId, consumed, found, claimed⟩⟩ := named
    · exact ⟨requestId, inputs, answers, carries,
        .inr (.inr (.inr ⟨deliveryId, member, .inl gone⟩))⟩
    · exact ⟨requestId, inputs, answers, carries, .inr (.inr (.inr ⟨deliveryId, member,
        .inr ⟨terminalId, consumed, dropAwaited_expected found, claimed⟩⟩))⟩

theorem expects_of_consumes (credit : CreditFollows events index)
    (advances : Advances lookup entry index event after) (consumes : event.Consumes deliveryId) :
    Expects after deliveryId := by
  cases advances with
  | @answered consumed notes bindings forgets answers inputs mode =>
      exact ⟨entry.id, consumed, OrderedMap.get?_set_self _ _ _, consumes⟩
  | @settled settlement wake completion stated present answer unsettled =>
      obtain ⟨item, selected, rfl⟩ := List.mem_map.mp consumes
      obtain ⟨consumed, expected, inputs, -⟩ :=
        credit.proofs.proven present unsettled answer selected
      exact ⟨completion.terminalEntryId, consumed, expected, inputs ▸ consumes⟩
  | _ => exact consumes.elim

/-- An entry that misplaces no credit keeps the invariants. -/
theorem CreditFollows.step (credit : CreditFollows events index)
    (applied : index.apply env lookup entry = .ok after)
    (placed : ¬MisplacesCredit index lookup entry) :
    CreditFollows (events ++ [ledgerEvent env index lookup entry]) after ∧
      ∀ deliveryId, (ledgerEvent env index lookup entry).Consumes deliveryId →
        Expects after deliveryId := by
  obtain ⟨stated, advances, -⟩ := apply_spec credit.follows.keyed applied
  have dropped := credit.dropAwaited stated
  have stillPlaced : ¬MisplacesCredit (index.dropAwaited stated) lookup entry :=
    fun misplaced => placed (misplacesCredit_of_dropAwaited misplaced)
  exact
    ⟨{ pends := dropped.pends.advance dropped.follows advances stillPlaced
       follows := dropped.follows.advance dropped.pends advances
       claims := dropped.claims.advance dropped.follows dropped.pends advances stillPlaced
       proofs := dropped.proofs.advance dropped.follows rfl advances stillPlaced },
      fun _ => expects_of_consumes dropped advances⟩

/-- Inputs are consumed once along every run that misplaces no credit. -/
theorem inputs_consumed_once_of_placed
    (env : Platform) (history : List (ParentInputIndex × (Lookup × SessionEntry)))
    (index : ParentInputIndex) (run : LedgerRun env history index)
    (placed : ∀ step ∈ history, ¬MisplacesCredit step.1 step.2.1 step.2.2) :
    InputsConsumedOnce env history index := by
  have credited : CreditFollows (ledgerEvents env history) index ∧
      ∀ step ∈ history, ∀ deliveryId,
        (ledgerEvent env step.1 step.2.1 step.2.2).Consumes deliveryId →
          ∃ next, LedgerStep env step.1 step.2 next ∧ Expects next deliveryId := by
    induction run with
    | start =>
        exact ⟨⟨pendingFollows_initial, wakesFollow_initial, claimsFollow_initial,
          wakesProven_initial⟩, by simp⟩
    | @extend before after history read earlier taken ih =>
        obtain ⟨credit, expected⟩ := ih fun step member => placed step (List.mem_append_left _ member)
        obtain ⟨next, consumed⟩ := credit.step taken (placed (before, read) (by simp))
        refine ⟨by simpa [ledgerEvents] using next, ?_⟩
        intro step member deliveryId consumes
        rcases List.mem_append.mp member with old | last
        · exact expected step old deliveryId consumes
        · obtain rfl := List.mem_singleton.mp last
          exact ⟨after, taken, consumed deliveryId consumes⟩
  obtain ⟨credit, expected⟩ := credited
  exact
    { pending := fun _ => credit.pends.held
      removedOnce := credit.pends.once
      recordedOnce := credit.claims.recordedOnce
      recorded := fun _ member _ records => (credit.claims.recorded member records).2
      expected }

instance (index : ParentInputIndex) (deliveryId : String) : Decidable (Expects index deliveryId) :=
  decidable_of_iff
    (index.expectedConsumptions.entries.any fun expected =>
      (deliveries expected.2.inputs).contains deliveryId) <| by
    simp only [List.any_eq_true, List.contains_iff_mem]
    constructor
    · rintro ⟨⟨terminalId, consumed⟩, member, named⟩
      exact ⟨terminalId, consumed, OrderedMap.get?_eq_some.mpr member, named⟩
    · rintro ⟨terminalId, consumed, found, named⟩
      exact ⟨⟨terminalId, consumed⟩, OrderedMap.get?_eq_some.mp found, named⟩

/-- The request an entry answers and the inputs it carries. -/
def answeredInputs (index : ParentInputIndex) (lookup : Lookup) (entry : SessionEntry) :
    Option (String × List ParentWakeInput) :=
  match ParentInputIndex.completedTerminal entry with
  | none => none
  | some (requestId, answerId) =>
      if ParentInputIndex.isFinalAnswer (lookup answerId) = true then
        (index.requestInputs requestId).map fun inputs => (requestId, inputs)
      else none

theorem answeredInputs_eq_some :
    answeredInputs index lookup entry = some (requestId, inputs) ↔
      Answers lookup entry requestId ∧ index.requestInputs requestId = some inputs := by
  unfold answeredInputs Answers
  cases ended : ParentInputIndex.completedTerminal entry with
  | none => simp
  | some terminal =>
      obtain ⟨answered, answerId⟩ := terminal
      simp only [Option.some.injEq, Prod.mk.injEq]
      split
      next final =>
        simp only [Option.map_eq_some_iff, Prod.mk.injEq]
        constructor
        · rintro ⟨carried, carries, rfl, rfl⟩
          exact ⟨⟨answerId, ⟨rfl, rfl⟩, final⟩, carries⟩
        · rintro ⟨⟨answer, ⟨rfl, rfl⟩, -⟩, carries⟩
          exact ⟨inputs, carries, rfl, rfl⟩
      next unfinished =>
        refine ⟨nofun, ?_⟩
        rintro ⟨⟨answer, ⟨-, rfl⟩, final⟩, -⟩
        exact absurd final unfinished

instance (index : ParentInputIndex) (lookup : Lookup) (entry : SessionEntry) :
    Decidable (MisplacesCredit index lookup entry) :=
  decidable_of_iff
    (∃ answered ∈ answeredInputs index lookup entry,
      index.requestBindings.get? answered.1 = none ∨
        index.requestNotes.has answered.1 = true ∧ index.requestWakes.has answered.1 = true ∨
        index.expectedConsumptions.has entry.id = true ∨
        ∃ deliveryId ∈ deliveries answered.2,
          index.pending.get? deliveryId = none ∨ Expects index deliveryId) <| by
    constructor
    · rintro ⟨⟨requestId, inputs⟩, answered, misplaced⟩
      obtain ⟨answers, carries⟩ := answeredInputs_eq_some.mp answered
      exact ⟨requestId, inputs, answers, carries, misplaced⟩
    · rintro ⟨requestId, inputs, answers, carries, misplaced⟩
      exact ⟨⟨requestId, inputs⟩, answeredInputs_eq_some.mpr ⟨answers, carries⟩, misplaced⟩

/-- The history of applying entries, up to the first that is refused. -/
def ledgerHistory (env : Platform) (lookup : Lookup) :
    List SessionEntry → ParentInputIndex → List (ParentInputIndex × (Lookup × SessionEntry))
  | [], _ => []
  | entry :: entries, index =>
      (index, lookup, entry) ::
        match index.apply env lookup entry with
        | .ok next => ledgerHistory env lookup entries next
        | .error _ => []

variable {entries : List SessionEntry}

theorem ledgerRun_of_applyEntries {history : List (ParentInputIndex × (Lookup × SessionEntry))}
    (run : LedgerRun env history index)
    (applied : applyEntries env lookup entries index = .ok after) :
    LedgerRun env (history ++ ledgerHistory env lookup entries index) after := by
  induction entries generalizing history index with
  | nil =>
      obtain rfl := Except.ok.inj applied
      simpa [ledgerHistory] using run
  | cons entry entries ih =>
      simp only [applyEntries, bind_eq_ok] at applied
      obtain ⟨next, taken, rest⟩ := applied
      have step : LedgerStep env index (lookup, entry) next := taken
      simp only [ledgerHistory, taken]
      simpa using ih (run.extend step) rest

theorem ledgerRun_of_isOk (accepted : (applyEntries env lookup entries .initial).isOk = true) :
    ∃ index, LedgerRun env (ledgerHistory env lookup entries .initial) index := by
  cases applied : applyEntries env lookup entries .initial with
  | error reason =>
      rw [applied] at accepted
      cases accepted
  | ok index => exact ⟨index, by simpa using ledgerRun_of_applyEntries (.start _) applied⟩

/-- The saved form of the given note. -/
def noteText : String :=
  "\x7b\"customType\":\"note\",\"content\":\"Note\",\"display\":true\x7d"

/-- A platform that serialises and digests the given note. -/
def notePlatform : Platform where
  dateParse _ := none
  toISOString _ := ""
  sha256 text :=
    if text = noteText then "96b60fa4ffd7bcf006bc493b5b1ee8b05b7467e1ca97269e2ad1adce9631e5ab"
    else ""
  stringify _ := noteText
  parseUrl _ := none

def noteDigest : String := "239f59ed55e737c77147cf55ad0c1b030b6d7ee748a7426952f9b852d5a935e5"

/-- An entry of a session without branches; parents do not matter to the ledger. -/
def givenEntry (id : String) (body : EntryBody) : SessionEntry :=
  { id, parentId := none, timestamp := "2026-01-01T00:00:00.000Z", body }

def noteReference : Json :=
  .obj [("entryId", .str "note"), ("deliveryId", .str "delivery"),
    ("payloadDigest", .str noteDigest)]

/-- The note is delivered and its owner speaks. -/
def deliveredNote : List SessionEntry :=
  [givenEntry "note" (.customMessage "note" (.str "Note") true (some (.obj
      [("parentInput", .obj [("version", .num 2), ("deliveryId", .str "delivery"),
        ("payloadDigest", .str noteDigest),
        ("messageDigest",
          .str "96b60fa4ffd7bcf006bc493b5b1ee8b05b7467e1ca97269e2ad1adce9631e5ab"),
        ("origin", .obj [("sessionId", .str "session"), ("leafId", .str "leaf")]),
        ("mode", .str "next-owner-turn")])]))),
    givenEntry "owner" (.message (.user (.str "Go on") 0) false (some "prompt:1"))]

/-- A request of the owner is bound to the note. -/
def boundNote (requestId : String) : List SessionEntry :=
  [givenEntry s!"snapshot-{requestId}" (.requestSnapshot requestId ["owner"]),
    givenEntry s!"binding-{requestId}" (.custom PARENT_NOTE_REQUEST_CUSTOM_TYPE (some (.obj
      [("version", .num 1), ("requestId", .str requestId), ("ownerEntryId", .str "owner"),
        ("ownerInputId", .str "prompt:1"), ("inputs", .arr [noteReference])])))]

/-- A request is answered and its consumption of the note recorded. -/
def answeredNote (requestId : String) : List SessionEntry :=
  [givenEntry s!"answer-{requestId}" (.message (.assistant [] .stop 0) false none),
    givenEntry s!"terminal-{requestId}"
      (.providerRequestTerminal requestId .completed (some s!"answer-{requestId}")),
    givenEntry s!"record-{requestId}" (.custom PARENT_INPUT_CONSUMED_CUSTOM_TYPE (some (.obj
      [("version", .num 1), ("mode", .str "next-owner-turn"), ("requestId", .str requestId),
        ("requestSnapshotEntryId", .str s!"snapshot-{requestId}"),
        ("bindingEntryId", .str s!"binding-{requestId}"),
        ("authorizationEntryId", .str "owner"),
        ("terminalEntryId", .str s!"terminal-{requestId}"),
        ("assistantMessageEntryId", .str s!"answer-{requestId}"),
        ("inputs", .arr [noteReference])])))]

/-- Two requests are bound to one note before either is answered. -/
def doubledNoteEntries : List SessionEntry :=
  deliveredNote ++ boundNote "1" ++ boundNote "2" ++ answeredNote "1" ++ answeredNote "2"

/-- Both answers are recorded as the work that consumed the note. -/
theorem note_is_recorded_twice :
    ¬∀ env history index, LedgerRun env history index → InputsConsumedOnce env history index := by
  intro consumedOnce
  obtain ⟨index, run⟩ : ∃ index, LedgerRun notePlatform
      (ledgerHistory notePlatform (entriesById doubledNoteEntries) doubledNoteEntries .initial)
      index := ledgerRun_of_isOk (by decide +kernel)
  have once := (consumedOnce _ _ _ run).recordedOnce "delivery"
  have events : ledgerEvents notePlatform (ledgerHistory notePlatform
      (entriesById doubledNoteEntries) doubledNoteEntries .initial) =
        [.accepted "delivery", .other, .other, .other, .other, .other, .other,
          .answered ["delivery"], .recorded ["delivery"], .other, .answered ["delivery"],
          .recorded ["delivery"]] := by decide +kernel
  rw [events] at once
  simp [LedgerEvent.Records] at once

/-- One request is bound to the note and answered. -/
def singleNoteHistory : List (ParentInputIndex × (Lookup × SessionEntry)) :=
  let entries := deliveredNote ++ boundNote "1" ++ answeredNote "1"
  ledgerHistory notePlatform (entriesById entries) entries .initial

/-- One answered request consumes the note once. -/
theorem single_note_is_consumed_once :
    .recorded ["delivery"] ∈ ledgerEvents notePlatform singleNoteHistory ∧
      ∃ index, InputsConsumedOnce notePlatform singleNoteHistory index := by
  refine ⟨by decide +kernel, ?_⟩
  obtain ⟨index, run⟩ : ∃ index, LedgerRun notePlatform singleNoteHistory index :=
    ledgerRun_of_isOk (by decide +kernel)
  exact ⟨index, inputs_consumed_once_of_placed _ _ _ run (by decide +kernel)⟩

end PiAdaptative.Session
