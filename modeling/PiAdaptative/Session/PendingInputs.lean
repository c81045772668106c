import PiAdaptative.Session.InputConsumption

/-!
# Pending parent inputs

The pending set follows the events of the ledger and the wakes follow the pending set: the inputs of
the one wake that is not settled are pending, those of settled wakes are not.
-/

namespace PiAdaptative.Session

variable {env : Platform} {lookup : Lookup} {entry : SessionEntry}
variable {index after : ParentInputIndex} {deliveryId : String}
variable {events : List LedgerEvent} {event : LedgerEvent}

variable {input : PersistedParentInput}

section Pending

variable {accepted pending next : OrderedMap String PersistedParentInput}

/-- The accepted inputs and the pending set follow the events. -/
structure PendingFollows (events : List LedgerEvent)
    (accepted pending : OrderedMap String PersistedParentInput) : Prop where
  known : ∀ {deliveryId}, (accepted.get? deliveryId).isSome = true ↔
    .accepted deliveryId ∈ events
  retained : ∀ {deliveryId input}, pending.get? deliveryId = some input →
    accepted.get? deliveryId = some input
  held : ∀ {deliveryId}, (pending.get? deliveryId).isSome = true ↔
    .accepted deliveryId ∈ events ∧ ∀ event ∈ events, ¬event.Removes deliveryId
  removed : ∀ {event deliveryId}, event ∈ events → event.Removes deliveryId →
    .accepted deliveryId ∈ events
  once : ∀ deliveryId, events.Pairwise fun event later =>
    ¬(event.Removes deliveryId ∧ later.Removes deliveryId)

theorem pendingFollows_initial : PendingFollows [] .empty .empty where
  known := by simp
  retained found := by simp at found
  held := by simp
  removed member := by simp at member
  once := by simp

/-- A delivery is accepted for the first time. -/
theorem PendingFollows.accept (follows : PendingFollows events accepted pending)
    (fresh : accepted.get? deliveryId = none) :
    PendingFollows (events ++ [.accepted deliveryId]) (accepted.set deliveryId input)
      (pending.set deliveryId input) := by
  have unknown : .accepted deliveryId ∉ events := by
    rw [← follows.known, fresh]
    simp
  refine ⟨?_, ?_, ?_, ?_, ?_⟩
  · intro other
    rw [OrderedMap.get?_set]
    split
    next same => simp [same]
    next apart => simp [follows.known, apart]
  · intro other present found
    rw [OrderedMap.get?_set] at found ⊢
    split
    next same => simpa [same] using found
    next apart =>
      rw [if_neg apart] at found
      exact follows.retained found
  · intro other
    rw [OrderedMap.get?_set]
    split
    next same =>
      subst same
      simp only [Option.isSome_some, List.mem_append, List.mem_singleton, or_true, true_and,
        true_iff]
      rintro event (member | rfl) removes
      · exact unknown (follows.removed member removes)
      · exact removes
    next apart =>
      rw [follows.held]
      simp [LedgerEvent.Removes, apart, or_imp, forall_and]
  · intro event other member removes
    rcases List.mem_append.mp member with earlier | last
    · exact List.mem_append_left _ (follows.removed earlier removes)
    · obtain rfl := List.mem_singleton.mp last
      exact removes.elim
  · intro other
    rw [List.pairwise_append]
    refine ⟨follows.once other, List.pairwise_singleton _ _, ?_⟩
    rintro earlier - last member ⟨-, removes⟩
    obtain rfl := List.mem_singleton.mp member
    exact removes

/-- An event removes pending deliveries. -/
theorem PendingFollows.remove (ids : List String)
    (follows : PendingFollows events accepted pending)
    (removes : ∀ deliveryId, event.Removes deliveryId ↔ deliveryId ∈ ids)
    (quiet : ∀ deliveryId, event ≠ .accepted deliveryId)
    (standing : ∀ deliveryId ∈ ids, (pending.get? deliveryId).isSome = true)
    (left : ∀ deliveryId, next.get? deliveryId =
      if deliveryId ∈ ids then none else pending.get? deliveryId) :
    PendingFollows (events ++ [event]) accepted next := by
  have acceptedBefore : ∀ {deliveryId}, .accepted deliveryId ∈ events ++ [event] ↔
      .accepted deliveryId ∈ events := by
    intro deliveryId
    simp [(quiet deliveryId).symm]
  refine ⟨?_, ?_, ?_, ?_, ?_⟩
  · intro deliveryId
    rw [acceptedBefore, follows.known]
  · intro deliveryId input found
    rw [left] at found
    split at found
    · cases found
    · exact follows.retained found
  · intro deliveryId
    rw [left, acceptedBefore]
    simp only [List.mem_append, List.mem_singleton, or_imp, forall_and, forall_eq, removes]
    split
    next taken => simp [taken]
    next untaken => simp [follows.held, untaken]
  · intro earlier deliveryId member taken
    rw [acceptedBefore]
    rcases List.mem_append.mp member with before | last
    · exact follows.removed before taken
    · obtain rfl := List.mem_singleton.mp last
      exact (follows.held.mp (standing _ ((removes _).mp taken))).1
  · intro deliveryId
    rw [List.pairwise_append]
    refine ⟨follows.once deliveryId, List.pairwise_singleton _ _, ?_⟩
    rintro earlier before last member ⟨taken, again⟩
    obtain rfl := List.mem_singleton.mp member
    exact (follows.held.mp (standing _ ((removes _).mp again))).2 earlier before taken

/-- An event without acceptance or removal leaves the pending set. -/
theorem PendingFollows.idle (follows : PendingFollows events accepted pending)
    (removes : ∀ deliveryId, ¬event.Removes deliveryId)
    (quiet : ∀ deliveryId, event ≠ .accepted deliveryId) :
    PendingFollows (events ++ [event]) accepted pending :=
  follows.remove [] (by simpa using removes) quiet (by simp) (by simp)

theorem get?_foldl_erase (inputs : List ParentWakeInput)
    (pending : OrderedMap String PersistedParentInput) (deliveryId : String) :
    (inputs.foldl (fun pending input => pending.erase input.deliveryId) pending).get? deliveryId =
      if deliveryId ∈ deliveries inputs then none else pending.get? deliveryId := by
  induction inputs generalizing pending with
  | nil => simp [deliveries]
  | cons input inputs ih =>
      rw [List.foldl_cons, ih, OrderedMap.get?_erase]
      simp only [deliveries, List.map_cons, List.mem_cons]
      by_cases same : deliveryId = input.deliveryId <;>
        by_cases member : deliveryId ∈ inputs.map ParentWakeInput.deliveryId <;>
          simp [same, member]

end Pending

/-- Wakes are the current one, whose inputs are pending, and settled ones, whose inputs are not;
notes of open requests were held for an owner turn. -/
structure WakesFollow (index : ParentInputIndex) : Prop where
  keyed : ∀ {wakeId wake}, index.wakes.get? wakeId = some wake → wake.wakeId = wakeId
  standing : ∀ {wakeId wake}, index.wakes.get? wakeId = some wake →
    index.currentWakeId = some wakeId ∧ wakeId ≠ "" ∨ wakeId ∈ index.settled
  filed : ∀ {wakeId}, wakeId ∈ index.settled → index.wakes.has wakeId = true
  current : ∀ {wakeId wake item}, wakeId ∉ index.settled →
    index.wakes.get? wakeId = some wake → item ∈ wake.inputs →
      ∃ input, index.pending.get? item.deliveryId = some input ∧ input.metadata.mode = .turn
  settled : ∀ {wakeId wake item}, wakeId ∈ index.settled →
    index.wakes.get? wakeId = some wake → item ∈ wake.inputs →
      index.pending.get? item.deliveryId = none ∧
        (index.accepted.get? item.deliveryId).isSome = true
  notes : ∀ {requestId inputs item}, index.requestNotes.get? requestId = some inputs →
    item ∈ inputs → ∃ input, index.accepted.get? item.deliveryId = some input ∧
      input.metadata.mode = .nextOwnerTurn

theorem wakesFollow_initial : WakesFollow .initial where
  keyed found := by simp [ParentInputIndex.initial] at found
  standing found := by simp [ParentInputIndex.initial] at found
  filed member := by simp [ParentInputIndex.initial] at member
  current _ found := by simp [ParentInputIndex.initial] at found
  settled member := by simp [ParentInputIndex.initial] at member
  notes found := by simp [ParentInputIndex.initial] at found

variable {wake : ParentInputWake} {wakeId : String}

section

variable (follows : WakesFollow index)
include follows

/-- An unsettled wake is open. -/
theorem WakesFollow.openWake (found : index.wakes.get? wakeId = some wake)
    (unsettled : wakeId ∉ index.settled) : index.openWake = some wake := by
  obtain ⟨latest, named⟩ := (follows.standing found).resolve_right unsettled
  simp [ParentInputIndex.openWake, latest, truthy_eq_some.mpr ⟨rfl, named⟩, found]

/-- One wake at most is not settled. -/
theorem WakesFollow.unique {wakeId other : String} {wake otherWake : ParentInputWake}
    (found : index.wakes.get? wakeId = some wake) (unsettled : wakeId ∉ index.settled)
    (otherFound : index.wakes.get? other = some otherWake)
    (otherUnsettled : other ∉ index.settled) : wakeId = other := by
  have latest := ((follows.standing found).resolve_right unsettled).1
  have otherLatest := ((follows.standing otherFound).resolve_right otherUnsettled).1
  exact Option.some.inj (latest.symm.trans otherLatest)

/-- Inputs of other modes leave the pending set. -/
theorem WakesFollow.shrink {pending : OrderedMap String PersistedParentInput}
    (kept : ∀ {deliveryId input}, index.pending.get? deliveryId = some input →
      input.metadata.mode = .turn → pending.get? deliveryId = some input)
    (fewer : ∀ {deliveryId}, index.pending.get? deliveryId = none →
      pending.get? deliveryId = none) :
    WakesFollow { index with pending := pending } where
  keyed := follows.keyed
  standing := follows.standing
  filed := follows.filed
  current unsettled found member := by
    obtain ⟨input, present, mode⟩ := follows.current unsettled found member
    exact ⟨input, kept present mode, mode⟩
  settled member found item := by
    obtain ⟨gone, known⟩ := follows.settled member found item
    exact ⟨fewer gone, known⟩
  notes := follows.notes

/-- A note is skipped. -/
theorem WakesFollow.skip {held : PersistedParentInput}
    (present : index.pending.get? deliveryId = some held)
    (mode : held.metadata.mode = .nextOwnerTurn) :
    WakesFollow
      { index with
        pending := index.pending.erase deliveryId
        skipped := index.skipped ++ [deliveryId] } := by
  have shrunk : WakesFollow { index with pending := index.pending.erase deliveryId } := by
    refine follows.shrink ?_ ?_
    · intro other input found turn
      rw [OrderedMap.get?_erase, if_neg]
      · exact found
      · rintro rfl
        obtain rfl := Option.some.inj (present.symm.trans found)
        cases mode.symm.trans turn
    · intro other absent
      rw [OrderedMap.get?_erase, absent, ite_self]
  exact ⟨shrunk.keyed, shrunk.standing, shrunk.filed, shrunk.current, shrunk.settled,
    shrunk.notes⟩

end

variable {inputs : List ParentWakeInput}

/-- Notes that a request carries are consumed. -/
theorem WakesFollow.consume {requestId : String} (follows : WakesFollow index)
    (pends : PendingFollows events index.accepted index.pending)
    (carries : index.requestNotes.get? requestId = some inputs) :
    WakesFollow
      { index with
        pending := inputs.foldl (fun pending input => pending.erase input.deliveryId)
          index.pending } := by
  refine follows.shrink ?_ ?_
  · intro other input found turn
    rw [get?_foldl_erase, if_neg]
    · exact found
    · intro member
      obtain ⟨item, selected, rfl⟩ := List.mem_map.mp member
      obtain ⟨note, known, mode⟩ := follows.notes carries selected
      obtain rfl := Option.some.inj (known.symm.trans (pends.retained found))
      cases mode.symm.trans turn
  · intro other absent
    rw [get?_foldl_erase, absent, ite_self]

/-- A fresh input is accepted. -/
theorem WakesFollow.accept (follows : WakesFollow index)
    (pends : PendingFollows events index.accepted index.pending)
    (fresh : index.accepted.get? deliveryId = none) :
    WakesFollow
      { index with
        accepted := index.accepted.set deliveryId input
        pending := index.pending.set deliveryId input } := by
  have untouched {other : String} {map : OrderedMap String PersistedParentInput}
      (known : (index.accepted.get? other).isSome = true) :
      (map.set deliveryId input).get? other = map.get? other := by
    rw [OrderedMap.get?_set, if_neg]
    rintro rfl
    rw [fresh] at known
    cases known
  refine ⟨follows.keyed, follows.standing, follows.filed, ?_, ?_, ?_⟩
  · intro wakeId wake item unsettled found member
    obtain ⟨earlier, present, mode⟩ := follows.current unsettled found member
    refine ⟨earlier, ?_, mode⟩
    rw [untouched (by rw [pends.retained present]; rfl)]
    exact present
  · intro wakeId wake item settled found member
    obtain ⟨gone, known⟩ := follows.settled settled found member
    rw [untouched known, untouched known]
    exact ⟨gone, known⟩
  · intro requestId inputs item found member
    obtain ⟨earlier, known, mode⟩ := follows.notes found member
    refine ⟨earlier, ?_, mode⟩
    rw [untouched (by rw [known]; rfl)]
    exact known

theorem namesPendingInput_eq_true {mode : ParentInputMode} {item : ParentWakeInput}
    (names : index.namesPendingInput mode item = true) :
    ∃ input, index.pending.get? item.deliveryId = some input ∧ input.metadata.mode = mode := by
  simp only [ParentInputIndex.namesPendingInput, Option.any_eq_true, decide_eq_true_eq] at names
  obtain ⟨input, present, -, -, same⟩ := names
  exact ⟨input, present, same⟩

/-- A request is bound to notes. -/
theorem WakesFollow.bindOwner {requestId : String} (follows : WakesFollow index)
    (pends : PendingFollows events index.accepted index.pending)
    (bindings : OrderedMap String RequestBinding)
    (selected : ∀ item ∈ inputs, index.namesPendingInput .nextOwnerTurn item = true) :
    WakesFollow
      { index with
        requestNotes := index.requestNotes.set requestId inputs
        requestBindings := bindings } := by
  refine ⟨follows.keyed, follows.standing, follows.filed, follows.current, follows.settled, ?_⟩
  intro other notes item found member
  rw [OrderedMap.get?_set] at found
  split at found
  · obtain rfl := Option.some.inj found
    obtain ⟨input, present, mode⟩ := namesPendingInput_eq_true (selected item member)
    exact ⟨input, pends.retained present, mode⟩
  · exact follows.notes found member

/-- A wake opens. -/
theorem WakesFollow.openManifest (follows : WakesFollow index) (named : wake.wakeId ≠ "")
    (closed : index.openWake = none) (fresh : index.wakes.get? wake.wakeId = none)
    (selected : ∀ item ∈ wake.inputs, index.namesPendingInput .turn item = true) :
    WakesFollow
      { index with
        wakes := index.wakes.set wake.wakeId wake
        currentWakeId := some wake.wakeId } := by
  have settled : ∀ {wakeId earlier}, index.wakes.get? wakeId = some earlier →
      wakeId ∈ index.settled := by
    intro wakeId earlier found
    by_contra unsettled
    cases closed.symm.trans (follows.openWake found unsettled)
  have later : ∀ {wakeId}, wakeId ∈ index.settled → wakeId ≠ wake.wakeId := by
    rintro wakeId member rfl
    have filed := follows.filed member
    rw [OrderedMap.has_eq_false.mpr fresh] at filed
    cases filed
  refine ⟨?_, ?_, ?_, ?_, ?_, follows.notes⟩
  · intro wakeId found present
    rw [OrderedMap.get?_set] at present
    split at present
    next same =>
      obtain rfl := Option.some.inj present
      exact same.symm
    · exact follows.keyed present
  · intro wakeId found present
    rw [OrderedMap.get?_set] at present
    split at present
    next same => exact .inl ⟨by rw [same], same ▸ named⟩
    · exact .inr (settled present)
  · intro wakeId member
    obtain ⟨earlier, present⟩ := OrderedMap.has_eq_true.mp (follows.filed member)
    refine OrderedMap.has_eq_true.mpr ⟨earlier, ?_⟩
    rw [OrderedMap.get?_set, if_neg (later member)]
    exact present
  · intro wakeId found item unsettled present member
    rw [OrderedMap.get?_set] at present
    split at present
    · obtain rfl := Option.some.inj present
      exact namesPendingInput_eq_true (selected item member)
    · exact absurd (settled present) unsettled
  · intro wakeId found item member present
    rw [OrderedMap.get?_set, if_neg (later member)] at present
    exact follows.settled member present

variable {wakes next : OrderedMap String ParentInputWake}

theorem SameManifests.get? (same : SameManifests wakes next)
    (found : next.get? wakeId = some wake) :
    ∃ before, wakes.get? wakeId = some before ∧ before.wakeId = wake.wakeId ∧
      before.inputs = wake.inputs := by
  have manifest := same wakeId
  rw [found] at manifest
  obtain ⟨before, present, shared⟩ := Option.map_eq_some_iff.mp manifest.symm
  simp only [Prod.mk.injEq] at shared
  exact ⟨before, present, shared.2.1, shared.2.2⟩

theorem SameManifests.symm (same : SameManifests wakes next) : SameManifests next wakes :=
  fun wakeId => (same wakeId).symm

/-- Wakes are answered or bound anew. -/
theorem WakesFollow.remanifest {wakes : OrderedMap String ParentInputWake}
    (follows : WakesFollow index) (same : SameManifests index.wakes wakes) :
    WakesFollow { index with wakes := wakes } := by
  refine ⟨?_, ?_, ?_, ?_, ?_, follows.notes⟩
  · intro wakeId wake found
    obtain ⟨before, present, sameId, -⟩ := same.get? found
    exact sameId.symm.trans (follows.keyed present)
  · intro wakeId wake found
    obtain ⟨before, present, -⟩ := same.get? found
    exact follows.standing present
  · intro wakeId member
    obtain ⟨before, present⟩ := OrderedMap.has_eq_true.mp (follows.filed member)
    obtain ⟨wake, found, -⟩ := same.symm.get? present
    exact OrderedMap.has_eq_true.mpr ⟨wake, found⟩
  · intro wakeId wake item unsettled found member
    obtain ⟨before, present, -, sameInputs⟩ := same.get? found
    exact follows.current unsettled present (sameInputs ▸ member)
  · intro wakeId wake item member found selected
    obtain ⟨before, present, -, sameInputs⟩ := same.get? found
    exact follows.settled member present (sameInputs ▸ selected)

/-- The unsettled wake settles. -/
theorem WakesFollow.settle (follows : WakesFollow index)
    (pends : PendingFollows events index.accepted index.pending)
    (found : index.wakes.get? wakeId = some wake) (unsettled : wakeId ∉ index.settled) :
    WakesFollow
      { index with
        pending := wake.inputs.foldl (fun pending input => pending.erase input.deliveryId)
          index.pending
        settled := index.settled ++ [wake.wakeId]
        currentWakeId := none } := by
  rw [follows.keyed found]
  have settled : ∀ {other earlier}, index.wakes.get? other = some earlier →
      other ∈ index.settled ++ [wakeId] := by
    intro other earlier present
    by_cases before : other ∈ index.settled
    · exact List.mem_append_left _ before
    · simp [follows.unique found unsettled present before]
  refine ⟨follows.keyed, fun present => .inr (settled present), ?_, ?_, ?_, follows.notes⟩
  · intro other member
    rcases List.mem_append.mp member with before | last
    · exact follows.filed before
    · obtain rfl := List.mem_singleton.mp last
      exact OrderedMap.has_eq_true.mpr ⟨wake, found⟩
  · intro other earlier item standing present
    exact absurd (settled present) standing
  · intro other earlier item member present selected
    simp only [get?_foldl_erase, ite_eq_left_iff]
    by_cases before : other ∈ index.settled
    · obtain ⟨gone, known⟩ := follows.settled before present selected
      exact ⟨fun _ => gone, known⟩
    · obtain rfl := follows.unique found unsettled present before
      obtain rfl := Option.some.inj (found.symm.trans present)
      obtain ⟨input, pending, -⟩ := follows.current unsettled found selected
      refine ⟨fun absent => absurd (List.mem_map_of_mem selected) absent, ?_⟩
      rw [pends.retained pending]
      rfl

/-- Every entry keeps the wakes and the notes in step with the pending set. -/
theorem WakesFollow.advance (follows : WakesFollow index)
    (pends : PendingFollows events index.accepted index.pending)
    (advances : Advances lookup entry index event after) : WakesFollow after := by
  cases advances with
  | recorded | kept =>
      exact ⟨follows.keyed, follows.standing, follows.filed, follows.current, follows.settled,
        follows.notes⟩
  | started =>
      unfold ParentInputIndex.startRequest
      split
      · exact ⟨follows.keyed, follows.standing, follows.filed, follows.current, follows.settled,
          follows.notes⟩
      · exact follows
  | skipped present mode => exact follows.skip present mode
  | accepted fresh => exact follows.accept pends fresh
  | opened named unanswered closed fresh selected =>
      exact follows.openManifest named closed fresh selected
  | ownerBound bindings selected => exact follows.bindOwner pends bindings selected
  | wakeBound bindings present unsettled fewer =>
      have rewritten := follows.remanifest (.set present none)
      exact ⟨rewritten.keyed, rewritten.standing, rewritten.filed, rewritten.current,
        rewritten.settled, rewritten.notes⟩
  | ended bindings forgets same unproven =>
      have rewritten := follows.remanifest same
      exact ⟨rewritten.keyed, rewritten.standing, rewritten.filed, rewritten.current,
        rewritten.settled, fun found => follows.notes (forgets found)⟩
  | @completed wake consumed completion notes bindings forgets present =>
      have rewritten := follows.remanifest (.set present (some completion))
      exact ⟨rewritten.keyed, rewritten.standing, rewritten.filed, rewritten.current,
        rewritten.settled, fun found => follows.notes (forgets found)⟩
  | answered bindings forgets answers inputs mode =>
      have consumed := follows.consume pends inputs
      exact ⟨consumed.keyed, consumed.standing, consumed.filed, consumed.current,
        consumed.settled, fun found => follows.notes (forgets found)⟩
  | settled stated present answer unsettled =>
      have closed := follows.settle pends present unsettled
      exact ⟨closed.keyed, closed.standing, closed.filed, closed.current, closed.settled,
        closed.notes⟩

/-- The pending set follows the entry unless it misplaces credit. -/
theorem PendingFollows.advance (pends : PendingFollows events index.accepted index.pending)
    (follows : WakesFollow index) (advances : Advances lookup entry index event after)
    (placed : ¬MisplacesCredit index lookup entry) :
    PendingFollows (events ++ [event]) after.accepted after.pending := by
  cases advances with
  | accepted fresh => exact pends.accept fresh
  | @skipped skip held present mode =>
      refine pends.remove [skip.deliveryId] ?_ (by rintro _ ⟨⟩) ?_ ?_
      · simp [LedgerEvent.Removes, eq_comm]
      · simp [present]
      · intro other
        simp [OrderedMap.get?_erase]
  | @answered consumed notes bindings forgets answers inputs mode =>
      refine pends.remove (deliveries consumed.inputs) (fun _ => Iff.rfl) (by rintro _ ⟨⟩) ?_
        (get?_foldl_erase _ _)
      intro deliveryId member
      by_contra absent
      rw [Bool.not_eq_true, Option.isSome_eq_false_iff, Option.isNone_iff_eq_none] at absent
      refine placed ⟨_, _, answers, ?_, .inr (.inr (.inr ⟨deliveryId, member, .inl absent⟩))⟩
      simp [ParentInputIndex.requestInputs, inputs]
  | @settled settlement wake completed stated present answer unsettled =>
      refine pends.remove (deliveries wake.inputs) (fun _ => Iff.rfl) (by rintro _ ⟨⟩) ?_
        (get?_foldl_erase _ _)
      intro deliveryId member
      obtain ⟨item, selected, rfl⟩ := List.mem_map.mp member
      obtain ⟨input, pending, -⟩ := follows.current unsettled present selected
      rw [pending]
      rfl
  | started =>
      have same : (index.startRequest entry).accepted = index.accepted ∧
          (index.startRequest entry).pending = index.pending := by
        unfold ParentInputIndex.startRequest
        split <;> exact ⟨rfl, rfl⟩
      rw [same.1, same.2]
      exact pends.idle (fun _ => id) (by rintro _ ⟨⟩)
  | _ => exact pends.idle (fun _ => id) (by rintro _ ⟨⟩)

end PiAdaptative.Session
