import PiAdaptative.HostEvents.Log

/-!
# Ended sources

An ended source is refused by its own record, so it stays ended while the record is retained.
Pruning takes the record away with the source's last event; after that nothing tells an ended
source from one that was never registered.
-/

namespace PiAdaptative.HostEvents

open TaskRuntime

variable {env : Environment} {platform : Platform} {event : OrchestrationEvent}
variable {before state after : TaskRuntimeProjection}
variable {history : List (TaskRuntimeProjection × OrchestrationEvent)}

def EndsSource (event : OrchestrationEvent) (sourceId : String) : Prop :=
  event.type = .hostSourceEnded ∧ event.aggregateId = sourceId

def RegistersSource (event : OrchestrationEvent) (sourceId : String) : Prop :=
  event.type = .hostSourceRegistered ∧ event.aggregateId = sourceId

/-- The event accepts an occurrence of the source. -/
def DeliversFrom (env : Environment) (event : OrchestrationEvent) (sourceId : String) : Prop :=
  event.type = .hostEventAccepted ∧
    ∃ envelope, parseHostEventEnvelope env.toPlatform (event.payload.field "envelope") =
      .ok envelope ∧ envelope.sourceId = sourceId

/-- No event registers or delivers for a source that an earlier event ended. -/
def EndedSourcesFinal (env : Environment) (events : List OrchestrationEvent) : Prop :=
  events.Pairwise fun earlier later => ∀ sourceId, EndsSource earlier sourceId →
    ¬RegistersSource later sourceId ∧ ¬DeliversFrom env later sourceId

/-- A pruning event lists every retained event of an ended source, which is still retained. -/
def PrunesEndedSource (state : TaskRuntimeProjection) (event : OrchestrationEvent)
    (sourceId : String) : Prop :=
  event.type = .hostEventPruned ∧
    ∃ source ids, state.eventSources.get? sourceId = some source ∧ source.ended.isSome = true ∧
      hostEventArray (event.payload.field "eventIds") MAX_HOST_EVENT_TARGETS
        (fun id => hostEventString id "eventId") "pruned events" = .ok ids ∧
      ∀ id accepted, state.hostEvents.get? id = some accepted →
        accepted.envelope.sourceId = sourceId → id ∈ ids

/-- No event registers a source whose ended record an earlier event pruned. -/
def NoPrunedSourceRegistered (history : List (TaskRuntimeProjection × OrchestrationEvent)) :
    Prop :=
  history.Pairwise fun earlier later => ∀ sourceId,
    PrunesEndedSource earlier.1 earlier.2 sourceId → ¬RegistersSource later.2 sourceId

theorem pruneEvents_get? {now : String} {pressure : Bool} {ids : List String}
    (pruned : pruneEvents platform now pressure ids state = .ok after) (id : String) :
    after.hostEvents.get? id = if id ∈ ids then none else state.hostEvents.get? id := by
  induction ids generalizing state with
  | nil =>
      obtain rfl := Except.ok.inj pruned
      simp
  | cons listed ids ih =>
      unfold pruneEvents at pruned
      split at pruned
      next absent =>
        rw [ih pruned]
        by_cases same : id = listed
        · simp [same, absent]
        · simp [same]
      next accepted found =>
        simp only [bind_eq_ok, exists_unit] at pruned
        rw [ih pruned.2, Record.get?_erase]
        by_cases same : id = listed <;> simp [same]

variable {sources : Record HostEventSourceState} {events : Record AcceptedHostEvent}

/-- The ended sources of a list without a retained event are removed. -/
theorem pruneEndedSources_get? {listed : List HostEventSourceState} (sourceId : String) :
    (pruneEndedSources events listed sources).get? sourceId =
      if ∃ source ∈ listed, source.registration.sourceId = sourceId ∧
          source.ended.isSome = true ∧
          ∀ accepted ∈ events.values, accepted.envelope.sourceId ≠ sourceId
        then none else sources.get? sourceId := by
  induction listed generalizing sources with
  | nil => simp [pruneEndedSources]
  | cons source listed ih =>
      unfold pruneEndedSources
      rw [ih]
      by_cases later : ∃ source ∈ listed, source.registration.sourceId = sourceId ∧
          source.ended.isSome = true ∧
          ∀ accepted ∈ events.values, accepted.envelope.sourceId ≠ sourceId
      · rw [if_pos later, if_pos]
        obtain ⟨other, member, facts⟩ := later
        exact ⟨other, List.mem_cons_of_mem _ member, facts⟩
      · rw [if_neg later]
        simp only [List.mem_cons, exists_eq_or_imp, or_iff_left later, List.any_eq_false,
          decide_eq_true_eq]
        by_cases same : source.registration.sourceId = sourceId
        · subst same
          by_cases released : source.ended.isSome = true ∧ ∀ accepted ∈ events.values,
              accepted.envelope.sourceId ≠ source.registration.sourceId
          · rw [if_pos released, if_pos ⟨rfl, released⟩, Record.get?_erase, if_pos rfl]
          · rw [if_neg released, if_neg (fun facts => released facts.2)]
        · simp only [same, false_and, if_false]
          split
          · rw [Record.get?_erase, if_neg (Ne.symm same)]
          · rfl

/-- Every source is filed under the identity it registered. -/
def SourcesKeyed (sources : Record HostEventSourceState) : Prop :=
  ∀ sourceId source, sources.get? sourceId = some source →
    source.registration.sourceId = sourceId

/-- What one event does to the record filed under a source. -/
inductive SourceEffect (state : TaskRuntimeProjection) (event : OrchestrationEvent)
    (sourceId : String) : Option HostEventSourceState → Option HostEventSourceState → Prop
  | unchanged (source : Option HostEventSourceState) (quiet : ¬EndsSource event sourceId) :
      SourceEffect state event sourceId source source
  | registered {next : HostEventSourceState} (registers : RegistersSource event sourceId)
      (named : next.registration.sourceId = sourceId) (unended : next.ended = none) :
      SourceEffect state event sourceId none (some next)
  | updated {source next : HostEventSourceState} (live : source.ended = none)
      (named : next.registration.sourceId = sourceId)
      (ends : next.ended.isSome = true ↔ EndsSource event sourceId) :
      SourceEffect state event sourceId (some source) (some next)
  | pruned {source : HostEventSourceState}
      (prunes : PrunesEndedSource state event sourceId) :
      SourceEffect state event sourceId (some source) none

variable {sourceId : String}

/-- An update of one live source leaves every other source. -/
theorem SourceEffect.of_set {source next : HostEventSourceState}
    (present : LiveSource state.eventSources sourceId source)
    (named : next.registration.sourceId = sourceId)
    (ends : ∀ other, EndsSource event other ↔ next.ended.isSome = true ∧ other = sourceId)
    (other : String) :
    SourceEffect state event other (state.eventSources.get? other)
      ((state.eventSources.set sourceId next).get? other) := by
  by_cases same : other = sourceId
  · subst same
    rw [Record.get?_set_self, present.1]
    exact .updated present.2 named (by simp [ends])
  · rw [Record.get?_set_of_ne same]
    exact .unchanged _ fun ended => same ((ends other).mp ended).2

theorem not_endsSource (other : event.type ≠ .hostSourceEnded) : ¬EndsSource event sourceId := fun ended => other ended.1

/-- What an event does to the record filed under a source. -/
theorem HostChange.source_effect (keyed : SourcesKeyed state.eventSources)
    (changed : HostChange env state event sources events) (sourceId : String) :
    SourceEffect state event sourceId (state.eventSources.get? sourceId)
      (sources.get? sourceId) := by
  have silent : ∀ {next : HostEventSourceState} {target : String},
      event.type ≠ .hostSourceEnded → next.ended = none →
        ∀ other, EndsSource event other ↔ next.ended.isSome = true ∧ other = target := by
    intro next target other unended sourceId
    simp [EndsSource, other, unended]
  cases changed with
  | quiet silent => exact .unchanged _ (not_endsSource silent.1)
  | @registered registration kind decoded aggregate fresh =>
      by_cases same : sourceId = registration.sourceId
      · subst same
        rw [fresh, Record.get?_set_self]
        exact .registered ⟨kind, aggregate⟩ rfl rfl
      · rw [Record.get?_set_of_ne same]
        exact .unchanged _ (not_endsSource (by simp [kind]))
  | rescoped kind aggregate present epoch =>
      refine .of_set present ?_ (silent ?_ ?_) sourceId
      · rfl
      · simp [kind]
      · exact present.2
  | caughtUp kind present | retired kind present | gapped kind decoded present
  | accepted kind decoded present =>
      have named := keyed _ _ present.1
      refine .of_set present ?_ (silent ?_ ?_) sourceId
      · exact named
      · simp [kind]
      · exact present.2
  | @sealed_ published source custody accepted frontier kind decoded present epoch snapshots
      kept =>
      have quiet : ¬EndsSource event sourceId := not_endsSource (by simp [kind])
      obtain ⟨⟨unaccepted, narrowed⟩, others⟩ := applySealSnapshots_sources snapshots present.1
      obtain rfl := Option.some.inj (kept.symm.trans narrowed)
      by_cases same : sourceId = published.sourceId
      · subst same
        rw [Record.get?_set_self, present.1]
        exact .updated present.2 (keyed _ source present.1) (by simp [present.2, quiet])
      · rw [Record.get?_set_of_ne same, others sourceId same]
        exact .unchanged _ quiet
  | @ended source reason kind present =>
      have named := keyed _ _ present.1
      refine .of_set present ?_ (fun other => ?_) sourceId
      · exact named
      · simp [EndsSource, kind, eq_comm]
  | @pruned ids pruned pressure kind decoded removed =>
      rw [pruneEndedSources_get?]
      split
      next released =>
        obtain ⟨source, member, named, ended, drained⟩ := released
        obtain ⟨key, found⟩ := Record.mem_values.mp member
        obtain rfl := (keyed key source found).symm.trans named
        rw [found]
        refine .pruned ⟨kind, source, ids, found, ended, decoded, fun id accepted held own => ?_⟩
        by_contra unlisted
        refine drained accepted (Record.mem_values.mpr ⟨id, ?_⟩) own
        rw [pruneEvents_get? removed, if_neg unlisted, held]
      next => exact .unchanged _ (not_endsSource (by simp [kind]))

/-- Registering needs an absent or a live source. -/
theorem HostChange.registers (changed : HostChange env state event sources events)
    (registers : RegistersSource event sourceId) :
    state.eventSources.get? sourceId = none ∨
      ∃ source, LiveSource state.eventSources sourceId source := by
  obtain ⟨kind, rfl⟩ := registers
  cases changed with
  | quiet silent registered => exact Or.inr (registered kind)
  | registered _ decoded aggregate fresh => exact Or.inl (aggregate ▸ fresh)
  | rescoped _ aggregate present => exact Or.inr ⟨_, aggregate ▸ present⟩
  | caughtUp other | gapped other | sealed_ other | ended other | retired other
  | accepted other | pruned other => simp [kind] at other

theorem HostChange.delivers (changed : HostChange env state event sources events)
    (delivers : DeliversFrom env event sourceId) :
    ∃ source, LiveSource state.eventSources sourceId source := by
  obtain ⟨kind, envelope, decoded, rfl⟩ := delivers
  cases changed with
  | quiet silent => exact absurd kind silent.2.1
  | accepted _ again present =>
      obtain rfl := Except.ok.inj (decoded.symm.trans again)
      exact ⟨_, present⟩
  | registered other | rescoped other | caughtUp other | gapped other | sealed_ other
  | ended other | retired other | pruned other => simp [kind] at other

/-- What a log tells of the ended sources its state retains. -/
structure EndedRecords (history : List (TaskRuntimeProjection × OrchestrationEvent))
    (state : TaskRuntimeProjection) : Prop where
  keyed : SourcesKeyed state.eventSources
  ended : ∀ sourceId source, state.eventSources.get? sourceId = some source →
    source.ended.isSome = true → ∃ entry ∈ history, EndsSource entry.2 sourceId
  pruned : ∀ entry ∈ history, ∀ sourceId, PrunesEndedSource entry.1 entry.2 sourceId →
    ∃ finish ∈ history, EndsSource finish.2 sourceId

/-- Every ended source is either retained as ended or pruned. -/
def EndedStay (history : List (TaskRuntimeProjection × OrchestrationEvent))
    (state : TaskRuntimeProjection) : Prop :=
  ∀ sourceId, (∃ entry ∈ history, EndsSource entry.2 sourceId) →
    (∃ source, state.eventSources.get? sourceId = some source ∧ source.ended.isSome = true) ∨
      state.eventSources.get? sourceId = none ∧
        ∃ entry ∈ history, PrunesEndedSource entry.1 entry.2 sourceId

theorem EndedRecords.extend (records : EndedRecords history before)
    (taken : HostStep env before event after) :
    EndedRecords (history ++ [(before, event)]) after := by
  have effect := taken.changes.source_effect records.keyed
  refine ⟨fun sourceId source found => ?_, fun sourceId source found ended => ?_, ?_⟩
  · have change := effect sourceId
    rw [found] at change
    generalize origin : before.eventSources.get? sourceId = prior at change
    cases change with
    | unchanged => exact records.keyed sourceId source origin
    | registered registers named => exact named
    | updated live named => exact named
  · have change := effect sourceId
    rw [found] at change
    generalize origin : before.eventSources.get? sourceId = prior at change
    cases change with
    | unchanged =>
        obtain ⟨entry, member, ends⟩ := records.ended sourceId source origin ended
        exact ⟨entry, List.mem_append_left _ member, ends⟩
    | registered registers named unended => simp [unended] at ended
    | updated live named ends => exact ⟨(before, event), by simp, ends.mp ended⟩
  · simp only [List.forall_mem_append, List.forall_mem_singleton]
    refine ⟨fun entry member sourceId prunes => ?_, fun sourceId prunes => ?_⟩
    · obtain ⟨finish, earlier, ends⟩ := records.pruned entry member sourceId prunes
      exact ⟨finish, List.mem_append_left _ earlier, ends⟩
    · obtain ⟨-, source, ids, found, ended, -⟩ := prunes
      obtain ⟨finish, earlier, ends⟩ := records.ended sourceId source found ended
      exact ⟨finish, List.mem_append_left _ earlier, ends⟩

/-- An ended source stays ended or pruned while no pruned source is registered. -/
theorem EndedStay.extend (stay : EndedStay history before)
    (keyed : SourcesKeyed before.eventSources) (taken : HostStep env before event after)
    (unregistered : ∀ entry ∈ history, ∀ sourceId,
      PrunesEndedSource entry.1 entry.2 sourceId → ¬RegistersSource event sourceId) :
    EndedStay (history ++ [(before, event)]) after := by
  intro sourceId ends
  have change := taken.changes.source_effect keyed sourceId
  have earlier : (∃ source, before.eventSources.get? sourceId = some source ∧
      source.ended.isSome = true) ∨ before.eventSources.get? sourceId = none ∧
        (∃ entry ∈ history, PrunesEndedSource entry.1 entry.2 sourceId) ∨
      EndsSource event sourceId := by
    simp only [List.mem_append, List.mem_singleton, or_and_right, exists_or,
      exists_eq_left] at ends
    rcases ends with past | now
    · rcases stay sourceId past with held | released
      · exact Or.inl held
      · exact Or.inr (Or.inl released)
    · exact Or.inr (Or.inr now)
  generalize origin : before.eventSources.get? sourceId = prior at change earlier
  generalize after.eventSources.get? sourceId = next at change ⊢
  cases change with
  | unchanged _ quiet =>
      rcases earlier with held | ⟨absent, entry, member, prunes⟩ | now
      · exact Or.inl held
      · exact Or.inr ⟨absent, entry, List.mem_append_left _ member, prunes⟩
      · exact absurd now quiet
  | registered registers =>
      rcases earlier with ⟨source, held, -⟩ | ⟨-, entry, member, prunes⟩ | now
      · cases held
      · exact absurd registers (unregistered entry member sourceId prunes)
      · obtain ⟨kind, -⟩ := registers
        exact absurd (kind.symm.trans now.1) (by simp)
  | updated live named finished =>
      rcases earlier with ⟨source, held, ended⟩ | ⟨absent, -⟩ | now
      · obtain rfl := Option.some.inj held
        simp [live] at ended
      · cases absent
      · exact Or.inl ⟨_, rfl, finished.mpr now⟩
  | pruned prunes => exact Or.inr ⟨rfl, (before, event), by simp, prunes⟩

/-- Ended sources are final exactly when no source is registered after a pruning event took its
ended record away. -/
theorem ended_sources_final_iff_no_pruned_source_registered
    {projection : TaskRuntimeProjection} (log : HostLog env history projection) :
    EndedSourcesFinal env (history.map Prod.snd) ↔ NoPrunedSourceRegistered history := by
  obtain ⟨start, empty, run⟩ := log
  have joint : EndedRecords history projection ∧
      (NoPrunedSourceRegistered history → EndedStay history projection) ∧
        (EndedSourcesFinal env (history.map Prod.snd) ↔ NoPrunedSourceRegistered history) := by
    refine run.invariant (fun history state => EndedRecords history state ∧
      (NoPrunedSourceRegistered history → EndedStay history state) ∧
        (EndedSourcesFinal env (history.map Prod.snd) ↔ NoPrunedSourceRegistered history)) ?_ ?_
    · have none_retained : ∀ sourceId, start.eventSources.get? sourceId = none := by
        simp [empty, emptyHostEventProjection]
      refine ⟨⟨?_, ?_, by simp⟩, fun _ => by simp [EndedStay], ?_⟩
      · simp [SourcesKeyed, none_retained]
      · simp [none_retained]
      · simp [EndedSourcesFinal, NoPrunedSourceRegistered]
    · intro history before event after _ held taken
      obtain ⟨records, stay, same⟩ := held
      refine ⟨records.extend taken, ?_, ?_⟩
      · intro unregistered
        obtain ⟨earlier, -, last⟩ := List.pairwise_append.mp unregistered
        exact (stay earlier).extend records.keyed taken fun entry member =>
          last entry member (before, event) (by simp)
      · unfold EndedSourcesFinal NoPrunedSourceRegistered at same ⊢
        simp only [List.map_append, List.map_cons, List.map_nil, List.pairwise_append, same,
          List.pairwise_singleton, true_and, List.mem_singleton, forall_eq, List.mem_map,
          forall_exists_index, and_imp, forall_apply_eq_imp_iff₂]
        refine and_congr_right fun unregistered => ⟨fun final entry member sourceId prunes => ?_,
          fun unpruned entry member sourceId ends => ?_⟩
        · obtain ⟨finish, earlier, ends⟩ := records.pruned entry member sourceId prunes
          exact (final finish earlier sourceId ends).1
        · have settled := stay unregistered sourceId ⟨entry, member, ends⟩
          have dead : ¬∃ source, LiveSource before.eventSources sourceId source := by
            rintro ⟨source, found, live⟩
            rcases settled with ⟨held, retained, ended⟩ | ⟨absent, -⟩
            · obtain rfl := Option.some.inj (found.symm.trans retained)
              simp [live] at ended
            · cases found.symm.trans absent
          refine ⟨fun registers => ?_, fun delivers => dead (taken.changes.delivers delivers)⟩
          rcases settled with ⟨held, retained, -⟩ | ⟨-, pruning, earlier, prunes⟩
          · rcases taken.changes.registers registers with absent | live
            · cases retained.symm.trans absent
            · exact dead live
          · exact unpruned pruning earlier sourceId prunes registers
  exact joint.2.2

def sampleRegistration : Json :=
  .obj
    [("sourceId", .str "ci"), ("sourceEpoch", .str "epoch-1"), ("scopeVersion", .num 1),
      ("subjects", .arr
        [.obj
          [("host", .str "github.com"), ("repositoryId", .num 1), ("workflowId", .num 1),
            ("headSha", .str "0123456789012345678901234567890123456789")]]),
      ("rootSubjects", .arr []), ("startingSequence", .num 1)]

def sourceEvent (ordinal : Nat) (type : OrchestrationEventType) (payload : Json) :
    OrchestrationEvent :=
  { ordinal, eventId := s!"event-{ordinal}", type, aggregateId := "ci", actor := .runtime
    occurredAt := "2026-01-01T00:00:00.000Z", idempotencyKey := none, payload }

/-- A source is registered, ended, pruned and registered again. -/
def restartedSourceLog : List OrchestrationEvent :=
  [sourceEvent 1 .hostSourceRegistered (.obj [("registration", sampleRegistration)]),
    sourceEvent 2 .hostSourceEnded
      (.obj [("end", .obj [("sourceId", .str "ci"), ("sourceEpoch", .str "epoch-1"),
        ("reason", .str "journal_replaced")])]),
    sourceEvent 3 .hostEventPruned (.obj [("eventIds", .arr [])]),
    sourceEvent 4 .hostSourceRegistered (.obj [("registration", sampleRegistration)])]

theorem restartedSourceLog_not_final :
    ¬EndedSourcesFinal (calendarEnvironment []) restartedSourceLog := by
  intro final
  have restarted := (List.pairwise_cons.mp (List.pairwise_cons.mp final).2).1
  exact (restarted _ (List.mem_cons_of_mem _ List.mem_cons_self) "ci" ⟨rfl, rfl⟩).1 ⟨rfl, rfl⟩

/-- A source whose ended record was pruned is registered again. -/
theorem ended_source_is_registered_again :
    ∃ env history projection, HostLog env history projection ∧
      ¬EndedSourcesFinal env (history.map Prod.snd) := by
  obtain ⟨projection, -, log, events⟩ :=
    acceptedLog_of_isOk (calendarEnvironment []) restartedSourceLog
      (by decide +kernel) (by decide)
  exact ⟨_, _, projection, hostLog_of_acceptedLog log, events ▸ restartedSourceLog_not_final⟩

/-- The restarted source was registered after its ended record was pruned. -/
theorem restarted_source_was_pruned :
    ∃ env history projection, HostLog env history projection ∧
      ¬NoPrunedSourceRegistered history := by
  obtain ⟨projection, -, log, events⟩ :=
    acceptedLog_of_isOk (calendarEnvironment []) restartedSourceLog
      (by decide +kernel) (by decide)
  have exact_condition :=
    ended_sources_final_iff_no_pruned_source_registered (hostLog_of_acceptedLog log)
  rw [events] at exact_condition
  exact ⟨_, _, projection, hostLog_of_acceptedLog log,
    mt exact_condition.mpr restartedSourceLog_not_final⟩

end PiAdaptative.HostEvents
