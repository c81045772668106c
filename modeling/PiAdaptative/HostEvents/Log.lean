import PiAdaptative.HostEvents.Steps
import PiAdaptative.TaskRuntime.Readiness

/-!
# Host event logs

A host event log is a run of the host event reducer alone: the records it only reads may change in
any way from one event to the next.  The accepted logs of the whole projection are host event logs.
-/

namespace PiAdaptative.HostEvents

open TaskRuntime

variable {env : Environment} {event : OrchestrationEvent}
variable {before middle after : TaskRuntimeProjection}

/-- One event of a host event log: the reducer applies it, or it declares the subscriptions of a
new task. -/
inductive HostStep (env : Environment) (before : TaskRuntimeProjection)
    (event : OrchestrationEvent) (after : TaskRuntimeProjection) : Prop
  | reduced (applied : applyHostEvent env before event = .ok after.toHostEventProjection)
  | subscribed (kind : event.type.createsTask) (sources : after.eventSources = before.eventSources)
      (events : after.hostEvents = before.hostEvents)

/-- A log that the host event reducer accepts from empty host event records. -/
def HostLog (env : Environment) (history : List (TaskRuntimeProjection × OrchestrationEvent))
    (projection : TaskRuntimeProjection) : Prop :=
  ∃ start, start.toHostEventProjection = emptyHostEventProjection ∧
    Execution (HostStep env) start history projection

/-- What one event of a host event log does to the sources and the accepted events. -/
theorem HostStep.changes (taken : HostStep env before event after) :
    HostChange env before event after.eventSources after.hostEvents := by
  cases taken with
  | reduced applied => exact applyHostEvent_changes applied
  | subscribed kind sources events =>
      rw [sources, events]
      refine .quiet ?_ fun registered => ?_
      · rcases kind with same | same <;> simp [same]
      · rcases kind with same | same <;> simp [same] at registered

theorem applyHostEvent_of_other (other : event.type.isHostEvent = false) :
    applyHostEvent env before event = .ok before.toHostEventProjection := by
  unfold applyHostEvent
  split <;> simp_all [OrchestrationEventType.isHostEvent]

theorem applyHostEvent_of_host (host : event.type.isHostEvent = true)
    (reduced : applyOrchestrationEvent env before event = .ok after) :
    applyHostEvent env before event = .ok after.toHostEventProjection := by
  cases kind : event.type <;> rw [kind] at host <;> cases host
  all_goals
    simp only [applyOrchestrationEvent, kind, bind_eq_ok, pure_eq_ok] at reduced
    obtain ⟨records, applied, rfl⟩ := reduced
    exact applied

/-- A transition under another event leaves the sources and the accepted events; only the creation
of a task leaves subscriptions. -/
theorem host_frame_of_transition (taken : Transition env event before after)
    (other : event.type.isHostEvent = false) :
    after.eventSources = before.eventSources ∧ after.hostEvents = before.hostEvents ∧
      (event.type.createsTask ∨ after.toHostEventProjection = before.toHostEventProjection) := by
  cases taken with
  | hostRecords kind applied => simp [kind] at other
  | subscribed kind declared =>
      obtain ⟨sources, events⟩ := replaceHostEventSubscriptions_frame declared
      exact ⟨sources, events, Or.inl kind⟩
  | objectiveResumed kind present refreshed | taskCreated kind owner valid fresh refreshed
  | taskVerified kind unbound present recorded refreshed
  | attemptVerified kind decoded present guarded refreshed
  | attemptFinished kind decoded guarded released refreshed =>
      obtain ⟨tasks, rfl, -⟩ := refreshReadyTasks_spec refreshed
      exact ⟨rfl, rfl, Or.inr rfl⟩
  | approvalRejected kind decoded guarded rejected target =>
      unfold blockRejectedAttempt
      split <;> exact ⟨rfl, rfl, Or.inr rfl⟩
  | _ => exact ⟨rfl, rfl, Or.inr rfl⟩

theorem hostStep_of_applied (applied : Applied env before event after) :
    HostStep env before event after := by
  obtain ⟨-, state, reduced, rfl⟩ := applied
  cases host : event.type.isHostEvent with
  | true =>
      have applied := applyHostEvent_of_host host reduced
      exact .reduced applied
  | false =>
      have frame : state.eventSources = before.eventSources ∧
          state.hostEvents = before.hostEvents ∧
            (event.type.createsTask ∨
              state.toHostEventProjection = before.toHostEventProjection) := by
        have steps := applyOrchestrationEvent_takes reduced
        clear reduced
        rcases steps with (rfl | taken) | ⟨-, taken⟩
        · exact ⟨rfl, rfl, Or.inr rfl⟩
        · exact host_frame_of_transition taken host
        · induction taken with
          | refl => exact ⟨rfl, rfl, Or.inr rfl⟩
          | tail _ last ih =>
              obtain ⟨sources, events, frame⟩ := host_frame_of_transition last host
              refine ⟨sources.trans ih.1, events.trans ih.2.1, ?_⟩
              rcases frame with created | same
              · exact Or.inl created
              · exact ih.2.2.imp_right same.trans
      obtain ⟨sources, events, created | same⟩ := frame
      · exact .subscribed created sources events
      · exact .reduced ((applyHostEvent_of_other host).trans (congrArg _ same.symm))

/-- An accepted log is a host event log. -/
theorem hostLog_of_acceptedLog {history : List (TaskRuntimeProjection × OrchestrationEvent)}
    (log : AcceptedLog env history after) : HostLog env history after :=
  ⟨emptyProjection, rfl, Execution.mono hostStep_of_applied log⟩

end PiAdaptative.HostEvents
