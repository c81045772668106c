import PiAdaptative.TaskRuntime.TaskSteps
import PiAdaptative.TaskRuntime.Calls

/-!
# References to acceptance criteria

A task names criteria of its objective when it is created, and no update of the objective removes a
criterion that a task names.  Recorded evidence names a criterion of the objective too, but an
update does not look at the evidence.  Nothing ties the evidence of a worker result to a criterion.
-/

namespace PiAdaptative.TaskRuntime

variable {env : Environment} {event : OrchestrationEvent}
variable {state after : TaskRuntimeProjection}
variable {objectives : Record ObjectiveRuntimeState} {tasks next : Record TaskRuntimeState}
variable {history : List (TaskRuntimeProjection × OrchestrationEvent)}

/-- The identities of an objective's acceptance criteria. -/
def ObjectiveContract.criterionIds (objective : ObjectiveContract) : List String :=
  objective.acceptanceCriteria.map AcceptanceCriterion.id

/-- Every task is listed by its objective and names criteria the objective has. -/
def TasksListed (objectives : Record ObjectiveRuntimeState) (tasks : Record TaskRuntimeState) :
    Prop :=
  ∀ taskId task, tasks.get? taskId = some task →
    ∃ objective, objectives.get? task.task.objectiveId = some objective ∧
      taskId ∈ objective.taskIds ∧
        task.task.acceptanceCriterionIds ⊆ objective.objective.criterionIds

section

variable (listed : TasksListed objectives tasks)
include listed

theorem TasksListed.of_sources
    (sources : ∀ taskId task, next.get? taskId = some task →
      ∃ source, tasks.get? taskId = some source ∧ SameContract source.task task.task) :
    TasksListed objectives next := by
  intro taskId task found
  obtain ⟨source, present, status, moment, same⟩ := sources taskId task found
  rw [same]
  exact listed taskId source present

theorem TasksListed.set_task {taskId : String} {source target : TaskRuntimeState}
    (present : tasks.get? taskId = some source) (same : SameContract source.task target.task) :
    TasksListed objectives (tasks.set taskId target) := by
  refine listed.of_sources fun otherId other found => ?_
  rw [Record.get?_set] at found
  split at found
  next here =>
    obtain rfl := Option.some.inj found
    exact ⟨source, here ▸ present, same⟩
  · exact ⟨other, found, .refl _⟩

theorem TasksListed.setTaskStatus {taskId moment : String} {status : TaskStatus} :
    TasksListed objectives (setTaskStatus tasks taskId status moment) := by
  unfold TaskRuntime.setTaskStatus
  split
  · exact listed
  next present => exact listed.set_task present (.withStatus _ _ _)

theorem TasksListed.refreshed {moment : String} (made : Refreshed moment tasks next) :
    TasksListed objectives next := by
  refine listed.of_sources fun taskId task found => ?_
  obtain ⟨source, present, rfl | ⟨-, rfl⟩⟩ := made.source found
  · exact ⟨_, present, .refl _⟩
  · exact ⟨source, present, .withStatus _ _ _⟩

end

variable {current changed : ObjectiveRuntimeState}

/-- An objective that keeps its tasks and the criteria they name. -/
theorem TasksListed.set_objective {objectiveId : String}
    (listed : TasksListed objectives tasks) (present : objectives.get? objectiveId = some current)
    (tasksKept : current.taskIds ⊆ changed.taskIds)
    (criteriaKept : ∀ taskId task, tasks.get? taskId = some task → taskId ∈ current.taskIds →
      task.task.acceptanceCriterionIds ⊆ current.objective.criterionIds →
        task.task.acceptanceCriterionIds ⊆ changed.objective.criterionIds) :
    TasksListed (objectives.set objectiveId changed) tasks := by
  intro taskId task found
  obtain ⟨objective, owner, member, named⟩ := listed taskId task found
  by_cases same : task.task.objectiveId = objectiveId
  · rw [same] at owner
    obtain rfl := Option.some.inj (present.symm.trans owner)
    exact ⟨changed, by rw [same, Record.get?_set_self], tasksKept member,
      criteriaKept taskId task found member named⟩
  · exact ⟨objective, by rw [Record.get?_set_of_ne same, owner], member, named⟩

variable {objective : ObjectiveRuntimeState}

/-- What a transition does to the objective filed under an identity. -/
inductive ObjectiveEffect (env : Environment) (event : OrchestrationEvent)
    (state : TaskRuntimeProjection) (objectiveId : String) :
    Option ObjectiveRuntimeState → Option ObjectiveRuntimeState → Prop
  | unchanged (objective : Option ObjectiveRuntimeState) :
      ObjectiveEffect env event state objectiveId objective objective
  | created {objective : ObjectiveRuntimeState} (unevidenced : objective.evidence = []) :
      ObjectiveEffect env event state objectiveId none (some objective)
  | updated {current : ObjectiveRuntimeState} {objective : ObjectiveContract}
      (kind : event.type = .objectiveUpdated) (aggregate : event.aggregateId = objectiveId)
      (decoded : objectiveFromPayload env.toDecoders event.payload = .ok objective) :
      ObjectiveEffect env event state objectiveId (some current)
        (some { current with objective })
  | recorded {current : ObjectiveRuntimeState} {evidence : EvidenceContract}
      (kind : event.type = .objectiveEvidenceRecorded)
      (aggregate : event.aggregateId = objectiveId)
      (known : ∀ criterionId, evidence.criterionId = some criterionId →
        criterionId ∈ current.objective.criterionIds) :
      ObjectiveEffect env event state objectiveId (some current)
        (some { current with evidence := current.evidence ++ [evidence] })
  | moved {current next : ObjectiveRuntimeState}
      (criteria : next.objective.acceptanceCriteria = current.objective.acceptanceCriteria)
      (evidence : next.evidence = current.evidence) :
      ObjectiveEffect env event state objectiveId (some current) (some next)

/-- A change of one objective that keeps its criteria and its evidence. -/
theorem ObjectiveEffect.of_set {changedId : String}
    (present : state.objectives.get? changedId = some current)
    (criteria : changed.objective.acceptanceCriteria = current.objective.acceptanceCriteria)
    (evidence : changed.evidence = current.evidence) (objectiveId : String) :
    ObjectiveEffect env event state objectiveId (state.objectives.get? objectiveId)
      ((state.objectives.set changedId changed).get? objectiveId) := by
  by_cases same : objectiveId = changedId
  · subst same
    rw [present, Record.get?_set_self]
    exact .moved criteria evidence
  · rw [Record.get?_set_of_ne same]
    exact .unchanged _

end PiAdaptative.TaskRuntime
