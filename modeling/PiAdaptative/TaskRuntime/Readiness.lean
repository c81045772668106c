import PiAdaptative.TaskRuntime.Log

/-!
# Readiness of dependants

Refreshing an objective makes its pending tasks ready whose dependencies are settled, and changes
nothing else.  A task is ready exactly when each of its dependencies is a task of the same
objective that is settled.
-/

namespace PiAdaptative.TaskRuntime

variable {state after : TaskRuntimeProjection} {tasks refreshed : Record TaskRuntimeState}
variable {moment : String}

/-- Tasks that differ only by pending tasks having become ready. -/
def Refreshed (moment : String) (tasks refreshed : Record TaskRuntimeState) : Prop :=
  ∀ taskId, refreshed.get? taskId = tasks.get? taskId ∨
    ∃ current, tasks.get? taskId = some current ∧ current.task.status = .pending ∧
      refreshed.get? taskId = some (current.withStatus .ready moment)

theorem Refreshed.refl (moment : String) (tasks : Record TaskRuntimeState) :
    Refreshed moment tasks tasks :=
  fun _ => Or.inl rfl

theorem Refreshed.trans {first second third : Record TaskRuntimeState}
    (earlier : Refreshed moment first second) (later : Refreshed moment second third) :
    Refreshed moment first third := by
  intro taskId
  rcases later taskId with same | ⟨current, found, pending, ready⟩
  · rw [same]
    exact earlier taskId
  · rcases earlier taskId with same | ⟨source, _, _, made⟩
    · exact Or.inr ⟨current, same ▸ found, pending, ready⟩
    · obtain rfl := Option.some.inj (made.symm.trans found)
      cases pending

variable {taskId : String} {current : TaskRuntimeState}

theorem Refreshed.set (present : tasks.get? taskId = some current)
    (pending : current.task.status = .pending) :
    Refreshed moment tasks (tasks.set taskId (current.withStatus .ready moment)) := by
  intro other
  by_cases same : other = taskId
  · subst same
    exact Or.inr ⟨current, present, pending, Record.get?_set_self _ _ _⟩
  · exact Or.inl (Record.get?_set_of_ne same)

theorem refreshTasks_refreshed {taskIds : List String}
    (reduced : refreshTasks moment taskIds tasks = .ok refreshed) :
    Refreshed moment tasks refreshed := by
  induction taskIds generalizing tasks with
  | nil =>
      obtain rfl := Except.ok.inj reduced
      exact .refl _ _
  | cons taskId taskIds ih =>
      unfold refreshTasks at reduced
      split at reduced
      · exact ih reduced
      next current found =>
        obtain ⟨present, pending⟩ := Option.filter_eq_some_iff.mp found
        simp only [bind_eq_ok] at reduced
        obtain ⟨readiness, -, rest⟩ := reduced
        refine .trans ?_ (ih rest)
        split
        · exact .set present (of_decide_eq_true pending)
        · exact .refl _ _

/-- Refreshing replaces the tasks alone. -/
theorem refreshReadyTasks_spec {objectiveId : String}
    (reduced : refreshReadyTasks state objectiveId moment = .ok after) :
    ∃ refreshed, after = { state with tasks := refreshed } ∧
      Refreshed moment state.tasks refreshed := by
  unfold refreshReadyTasks at reduced
  split at reduced
  · obtain rfl := Except.ok.inj reduced
    exact ⟨state.tasks, rfl, .refl _ _⟩
  · simp only [bind_eq_ok, pure_eq_ok] at reduced
    obtain ⟨refreshed, made, rfl⟩ := reduced
    exact ⟨refreshed, rfl, refreshTasks_refreshed made⟩

/-- A task that survives refreshing keeps everything but a pending status. -/
theorem Refreshed.source (made : Refreshed moment tasks refreshed)
    (found : refreshed.get? taskId = some current) :
    ∃ source, tasks.get? taskId = some source ∧
      (current = source ∨ source.task.status = .pending ∧
        current = source.withStatus .ready moment) := by
  rcases made taskId with same | ⟨source, present, pending, ready⟩
  · exact ⟨current, same ▸ found, Or.inl rfl⟩
  · exact ⟨source, present, Or.inr ⟨pending, Option.some.inj (found.symm.trans ready)⟩⟩

/-- Every task survives refreshing. -/
theorem Refreshed.target {source : TaskRuntimeState} (made : Refreshed moment tasks refreshed)
    (found : tasks.get? taskId = some source) :
    ∃ current, refreshed.get? taskId = some current ∧
      (current = source ∨ source.task.status = .pending ∧
        current = source.withStatus .ready moment) := by
  rcases made taskId with same | ⟨present, held, pending, ready⟩
  · exact ⟨source, same.trans found, Or.inl rfl⟩
  · obtain rfl := Option.some.inj (held.symm.trans found)
    exact ⟨_, ready, Or.inr ⟨pending, rfl⟩⟩

/-- The dependency is a settled task of the objective. -/
def SettledIn (tasks : Record TaskRuntimeState) (objectiveId dependencyId : String) : Prop :=
  ∃ dependency, tasks.get? dependencyId = some dependency ∧
    dependency.task.objectiveId = objectiveId ∧
    settledDependency dependency.task.status = true

theorem unsettledDependencies_eq_nil {objectiveId : String} {dependencyIds : List String} :
    unsettledDependencies tasks (fun _ => false) objectiveId dependencyIds = .ok [] ↔
      ∀ dependencyId ∈ dependencyIds, SettledIn tasks objectiveId dependencyId := by
  induction dependencyIds with
  | nil => simp [unsettledDependencies]
  | cons dependencyId dependencyIds ih =>
      simp only [unsettledDependencies, bind_eq_ok, orThrow_eq_ok, Option.filter_eq_some_iff,
        decide_eq_true_eq, List.forall_mem_cons, ← ih, true_and]
      constructor
      · rintro ⟨dependency, ⟨present, owned⟩, unsettled, rest, finished⟩
        split at finished
        next settled =>
          obtain rfl := pure_eq_ok.mp finished
          exact ⟨⟨dependency, present, owned, settled⟩, rest⟩
        · cases pure_eq_ok.mp finished
      · rintro ⟨⟨dependency, present, owned, settled⟩, rest⟩
        exact ⟨dependency, ⟨present, owned⟩, [], rest, by rw [if_pos settled]; rfl⟩

/-- A task is ready exactly when every dependency is settled. -/
theorem taskDependencyReadiness_eq_ready {task : TaskContract} :
    taskDependencyReadiness tasks task = .ok .ready ↔
      ∀ dependencyId ∈ task.dependsOn, SettledIn tasks task.objectiveId dependencyId := by
  rw [← unsettledDependencies_eq_nil]
  simp only [taskDependencyReadiness, bind_eq_ok]
  constructor
  · rintro ⟨unsettled, listed, verdict⟩
    split at verdict
    · cases pure_eq_ok.mp verdict
    · split at verdict
      · cases pure_eq_ok.mp verdict
      next none_left =>
        simp only [ne_eq, List.map_eq_nil_iff, not_not] at none_left
        rw [listed, none_left]
  · intro listed
    exact ⟨[], listed, rfl⟩

/-- A pending task that is ready waits for nothing. -/
def Stranded (tasks : Record TaskRuntimeState) (task : TaskRuntimeState) : Prop :=
  task.task.status = .pending ∧
    ∀ dependencyId ∈ task.task.dependsOn, SettledIn tasks task.task.objectiveId dependencyId

theorem SettledIn.of_refreshed {objectiveId dependencyId : String}
    (made : Refreshed moment tasks refreshed)
    (settled : SettledIn refreshed objectiveId dependencyId) :
    SettledIn tasks objectiveId dependencyId := by
  obtain ⟨dependency, found, owned, status⟩ := settled
  obtain ⟨source, present, rfl | ⟨-, rfl⟩⟩ := made.source found
  · exact ⟨_, present, owned, status⟩
  · cases status

variable {task : TaskRuntimeState}

/-- A task that is stranded after refreshing was stranded before. -/
theorem Stranded.of_refreshed (made : Refreshed moment tasks refreshed)
    (found : refreshed.get? taskId = some task) (stranded : Stranded refreshed task) :
    tasks.get? taskId = some task ∧ Stranded tasks task := by
  obtain ⟨pending, settled⟩ := stranded
  obtain ⟨source, present, rfl | ⟨-, rfl⟩⟩ := made.source found
  · exact ⟨present, pending, fun id listed => (settled id listed).of_refreshed made⟩
  · cases pending

/-- Refreshing strands none of the tasks it visits. -/
theorem refreshTasks_complete {taskIds : List String}
    (reduced : refreshTasks moment taskIds tasks = .ok refreshed) (listed : taskId ∈ taskIds)
    (found : refreshed.get? taskId = some task) : ¬Stranded refreshed task := by
  induction taskIds generalizing tasks with
  | nil => cases listed
  | cons visited taskIds ih =>
      unfold refreshTasks at reduced
      split at reduced
      next idle =>
        rcases List.mem_cons.mp listed with rfl | later
        · intro stranded
          obtain ⟨present, pending, -⟩ :=
            stranded.of_refreshed (refreshTasks_refreshed reduced) found
          rw [present] at idle
          simp [pending] at idle
        · exact ih reduced later
      next current waiting =>
        obtain ⟨present, pending⟩ := Option.filter_eq_some_iff.mp waiting
        simp only [bind_eq_ok] at reduced
        obtain ⟨readiness, checked, rest⟩ := reduced
        rcases List.mem_cons.mp listed with rfl | later
        · intro stranded
          obtain ⟨kept, waits, settled⟩ :=
            stranded.of_refreshed (refreshTasks_refreshed rest) found
          split at kept
          · rw [Record.get?_set_self] at kept
            obtain rfl := Option.some.inj kept
            cases waits
          next unready =>
            obtain rfl := Option.some.inj (present.symm.trans kept)
            rw [if_neg unready] at settled
            rw [taskDependencyReadiness_eq_ready.mpr settled] at checked
            exact unready (Except.ok.inj checked).symm
        · exact ih rest later

/-- Refreshing an active objective strands none of its tasks. -/
theorem refreshReadyTasks_complete {objectiveId taskId : String}
    {objective : ObjectiveRuntimeState}
    (reduced : refreshReadyTasks state objectiveId moment = .ok after)
    (present : state.objectives.get? objectiveId = some objective)
    (active : objective.objective.status = .active) (listed : taskId ∈ objective.taskIds)
    (found : after.tasks.get? taskId = some task) : ¬Stranded after.tasks task := by
  unfold refreshReadyTasks at reduced
  rw [present] at reduced
  simp only [active, decide_true, Option.filter_some, if_true, bind_eq_ok, pure_eq_ok] at reduced
  obtain ⟨refreshed, made, rfl⟩ := reduced
  exact refreshTasks_complete made listed found

end PiAdaptative.TaskRuntime
