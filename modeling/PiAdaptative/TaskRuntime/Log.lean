import PiAdaptative.TaskRuntime.Steps

/-!
# Accepted logs

An accepted event either repeats an ordinal that was already reduced and changes nothing, or it is
the next one and is applied.  The applied events of an accepted log form an execution from the
projection before it; invariants are proved along that execution, one transition at a time.
-/

namespace PiAdaptative.TaskRuntime

/-- An event that follows the last ordinal and is applied. -/
def Applied (env : Environment) (before : TaskRuntimeProjection) (event : OrchestrationEvent)
    (after : TaskRuntimeProjection) : Prop :=
  event.ordinal = before.lastOrdinal + 1 ∧
    ∃ state, applyOrchestrationEvent env before event = .ok state ∧
      after = { state with lastOrdinal := event.ordinal }

/-- The projections before the applied events of a log, each with its event. -/
def appliedSteps (env : Environment) : List OrchestrationEvent → TaskRuntimeProjection →
    List (TaskRuntimeProjection × OrchestrationEvent)
  | [], _ => []
  | event :: events, projection =>
      match reduceOrchestrationEvent env projection event with
      | .error _ => []
      | .ok next =>
          if event.ordinal ≤ projection.lastOrdinal then appliedSteps env events next
          else (projection, event) :: appliedSteps env events next

/-- The applied events of a log that is accepted from the empty projection. -/
abbrev AcceptedLog (env : Environment)
    (history : List (TaskRuntimeProjection × OrchestrationEvent))
    (projection : TaskRuntimeProjection) : Prop :=
  Execution (Applied env) emptyProjection history projection

variable {env : Environment} {event : OrchestrationEvent}
variable {before after : TaskRuntimeProjection}

/-- What reducing one event means. -/
theorem reduceOrchestrationEvent_spec
    (reduced : reduceOrchestrationEvent env before event = .ok after) :
    event.ordinal ≤ before.lastOrdinal ∧ after = before ∨
      ¬event.ordinal ≤ before.lastOrdinal ∧ Applied env before event after := by
  simp only [reduceOrchestrationEvent, bind_eq_ok, exists_unit] at reduced
  obtain ⟨-, reduced⟩ := reduced
  split at reduced
  next repeated => exact Or.inl ⟨repeated, (pure_eq_ok.mp reduced).symm⟩
  next fresh =>
    simp only [bind_eq_ok, exists_unit, throwIf_eq_ok, pure_eq_ok] at reduced
    obtain ⟨contiguous, state, applied, -, -, rfl⟩ := reduced
    exact Or.inr ⟨fresh, not_not.mp contiguous, state, applied, rfl⟩

variable {events : List OrchestrationEvent}

/-- The applied events of an accepted log form an execution. -/
theorem reduceOrchestrationEvents_execution
    (accepted : reduceOrchestrationEvents env events before = .ok after) :
    Execution (Applied env) before (appliedSteps env events before) after := by
  induction events generalizing before with
  | nil =>
      obtain rfl := Except.ok.inj accepted
      exact .start _
  | cons event events ih =>
      simp only [reduceOrchestrationEvents, bind_eq_ok] at accepted
      obtain ⟨next, reduced, rest⟩ := accepted
      simp only [appliedSteps, reduced]
      rcases reduceOrchestrationEvent_spec reduced with ⟨repeated, rfl⟩ | ⟨fresh, applied⟩
      · rw [if_pos repeated]
        exact ih rest
      · rw [if_neg fresh]
        exact (Execution.single applied).trans (ih rest)

/-- Reducing a log and then another is reducing both. -/
theorem reduceOrchestrationEvents_append {earlier later : List OrchestrationEvent} :
    reduceOrchestrationEvents env (earlier ++ later) before =
      (do
        let middle ← reduceOrchestrationEvents env earlier before
        reduceOrchestrationEvents env later middle) := by
  induction earlier generalizing before with
  | nil => rfl
  | cons event events ih =>
      simp only [List.cons_append, reduceOrchestrationEvents]
      cases reduceOrchestrationEvent env before event with
      | error error => rfl
      | ok next => exact ih

/-- A property that every transition keeps is kept by every applied event.  The condition is met
by the projection before the event; compound events are free of it. -/
theorem Applied.preserves (holds : TaskRuntimeProjection → Prop)
    (condition : TaskRuntimeProjection → OrchestrationEvent → Prop)
    (unordered : ∀ {state ordinal}, holds state → holds { state with lastOrdinal := ordinal })
    (kept : ∀ {state next}, (¬event.type.isCompound → condition state event) → holds state →
      Transition env event state next → holds next)
    (applied : Applied env before event after) (met : condition before event)
    (held : holds before) : holds after := by
  obtain ⟨-, state, reduced, rfl⟩ := applied
  apply unordered
  have steps := applyOrchestrationEvent_takes reduced
  clear reduced
  rcases steps with (rfl | taken) | ⟨compound, taken⟩
  · exact held
  · exact kept (fun _ => met) held taken
  · induction taken with
    | refl => exact held
    | tail _ last ih => exact kept (fun simple => absurd compound simple) ih last

/-- A property that every transition keeps holds after every execution. -/
theorem holds_after_execution (holds : TaskRuntimeProjection → Prop)
    {history : List (TaskRuntimeProjection × OrchestrationEvent)}
    (unordered : ∀ {state ordinal}, holds state → holds { state with lastOrdinal := ordinal })
    (kept : ∀ {event state next}, holds state → Transition env event state next → holds next)
    (run : Execution (Applied env) before history after) (held : holds before) : holds after :=
  run.preserves holds held fun held applied =>
    applied.preserves holds (fun _ _ => True) unordered (fun _ => kept) trivial held

theorem appliedSteps_events
    (accepted : reduceOrchestrationEvents env events before = .ok after)
    (contiguous : events.map OrchestrationEvent.ordinal =
      List.range' (before.lastOrdinal + 1) events.length) :
    (appliedSteps env events before).map Prod.snd = events := by
  induction events generalizing before with
  | nil => rfl
  | cons event events ih =>
      simp only [reduceOrchestrationEvents, bind_eq_ok] at accepted
      obtain ⟨next, reduced, rest⟩ := accepted
      simp only [List.map_cons, List.length_cons, List.range'_succ, List.cons.injEq] at contiguous
      obtain ⟨follows, others⟩ := contiguous
      have fresh : ¬event.ordinal ≤ before.lastOrdinal := by omega
      obtain ⟨repeated, -⟩ | ⟨-, -, state, -, same⟩ := reduceOrchestrationEvent_spec reduced
      · exact absurd repeated fresh
      · have last : next.lastOrdinal = before.lastOrdinal + 1 := by rw [same, follows]
        simp only [appliedSteps, reduced, if_neg fresh, List.map_cons]
        rw [ih rest (by rw [others, last])]

/-- A log that reduces from the empty projection is accepted with all its events. -/
theorem acceptedLog_of_isOk (env : Environment) (events : List OrchestrationEvent)
    (reduces : (projectOrchestrationEvents env events).isOk = true)
    (contiguous : events.map OrchestrationEvent.ordinal = List.range' 1 events.length) :
    ∃ projection, projectOrchestrationEvents env events = .ok projection ∧
      AcceptedLog env (appliedSteps env events emptyProjection) projection ∧
        (appliedSteps env events emptyProjection).map Prod.snd = events := by
  cases reduced : projectOrchestrationEvents env events with
  | error error => simp [reduced, Except.isOk, Except.toBool] at reduces
  | ok projection =>
      exact ⟨projection, rfl, reduceOrchestrationEvents_execution reduced,
        appliedSteps_events reduced contiguous⟩

/-- The environment of a given log: the dates it names stand in a calendar, every text is its own
digest and every byte size is below its ceiling. -/
def calendarEnvironment (calendar : List (String × Int)) : Environment where
  dateParse date := calendar.lookup date
  toISOString instant := ((calendar.find? fun entry => entry.2 = instant).map Prod.fst).getD ""
  sha256 text := text
  stringify := Json.plainText
  parseUrl _ := none
  parseKnowledgeGrantReferences := .ok
  parseTaskBrief := .ok
  renderTaskBrief _ := ""
  parseWorkerExecutionContract _ := .error (.plain "Worker execution contract is invalid.")
  normalizeWorkerContextForkReference := .ok
  normalizeContextClaim := some
  decodeClaimReceipts value _ := some value
  boundedRedactedDiagnosticText text := text
  projectionSerializedBytes _ := 0
  hostEventBytes _ := 0
  sealBytes _ := 0
  replayGapBytes _ := 0
  transcriptReceiptBytes _ := 0
  trackedWritesWithinLimit _ _ := true

/-- An event that is delivered again changes nothing: an accepted log reduces to what its applied
events reduce to, and these follow the last ordinal without a gap. -/
theorem redelivery_changes_nothing
    (accepted : reduceOrchestrationEvents env events before = .ok after) :
    ∃ applied, List.Sublist applied events ∧
      reduceOrchestrationEvents env applied before = .ok after ∧
      applied.map OrchestrationEvent.ordinal =
        List.range' (before.lastOrdinal + 1) applied.length := by
  induction events generalizing before with
  | nil => exact ⟨[], .slnil, accepted, rfl⟩
  | cons event events ih =>
      simp only [reduceOrchestrationEvents, bind_eq_ok] at accepted
      obtain ⟨next, reduced, rest⟩ := accepted
      obtain ⟨applied, kept, same, contiguous⟩ := ih rest
      rcases reduceOrchestrationEvent_spec reduced with
        ⟨repeated, rfl⟩ | ⟨fresh, follows, state, -, made⟩
      · exact ⟨applied, kept.cons _, same, contiguous⟩
      · refine ⟨event :: applied, kept.cons_cons _, ?_, ?_⟩
        · simp only [reduceOrchestrationEvents, bind_eq_ok]
          exact ⟨next, reduced, same⟩
        · have last : next.lastOrdinal = before.lastOrdinal + 1 := by rw [made, follows]
          rw [List.map_cons, List.length_cons, List.range'_succ, contiguous, follows, last]

def emptyPruning : OrchestrationEvent where
  ordinal := 1
  eventId := "event-1"
  type := .hostEventPruned
  aggregateId := "host"
  actor := .runtime
  occurredAt := "2026-01-01T00:00:00.000Z"
  idempotencyKey := none
  payload := .obj [("eventIds", .arr [])]

theorem repeated_pruning_changes_nothing : ∃ applied projection,
    List.Sublist applied [emptyPruning, emptyPruning] ∧
      projectOrchestrationEvents (calendarEnvironment []) applied = .ok projection ∧
      applied.map OrchestrationEvent.ordinal = List.range' 1 applied.length := by
  have reduces : (projectOrchestrationEvents (calendarEnvironment [])
      [emptyPruning, emptyPruning]).isOk = true := by
    decide +kernel
  cases reduced : projectOrchestrationEvents (calendarEnvironment [])
      [emptyPruning, emptyPruning] with
  | error error => simp [reduced, Except.isOk, Except.toBool] at reduces
  | ok projection =>
      obtain ⟨applied, kept, same, contiguous⟩ := redelivery_changes_nothing reduced
      exact ⟨applied, projection, kept, same, contiguous⟩

end PiAdaptative.TaskRuntime
