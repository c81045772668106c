import PiAdaptative.HostEvents.Capacity

/-!
# Projection limits

The lifetime ceilings of the projection's records and of the collections nested in them.
-/

namespace PiAdaptative.TaskRuntime

open HostEvents

def assertRecordWithinLimit {α : Type} (values : Record α) (limit : Nat) (label : String) :
    Outcome Unit :=
  throwIf (limit < values.size) s!"Orchestration {label} limit ({limit}) exceeded."

def assertRecordHasCapacity {α : Type} (values : Record α) (limit : Nat) (label : String) :
    Outcome Unit :=
  throwIf (limit ≤ values.size) s!"Orchestration {label} limit ({limit}) reached."

def assertIdentifierListHasCapacity (values : List String) (limit : Nat) (label : String) :
    Outcome Unit :=
  throwIf (limit ≤ values.length) s!"Orchestration {label} limit ({limit}) reached."

def assertObjectiveEvidenceHasCapacity (objectives : Record ObjectiveRuntimeState)
    (objective : ObjectiveRuntimeState) : Outcome Unit := do
  throwIf (MAX_ORCHESTRATION_OBJECTIVE_EVIDENCE ≤ objective.evidence.length)
    s!"Orchestration objective evidence limit ({MAX_ORCHESTRATION_OBJECTIVE_EVIDENCE}) reached."
  throwIf
    (objectives.size ≠ 0 ∧ MAX_ORCHESTRATION_EVIDENCE ≤
      (objectives.values.map fun state => state.evidence.length).sum)
    s!"Orchestration evidence limit ({MAX_ORCHESTRATION_EVIDENCE}) reached."

def assertBoundedIdentifierList (values : List String) (limit : Nat) (label : String) :
    Outcome Unit := do
  throwIf (limit < values.length) s!"{label} exceeds its retained collection limit ({limit})."
  throwIf
    (¬values.Nodup ∨
      values.any (fun entry =>
        entry = "" ∨ MAX_ORCHESTRATION_IDENTIFIER_LENGTH < utf16Length entry) = true)
    s!"{label} must contain unique bounded identifiers."

/-- Run a check on every entry, in enumeration order. -/
def checkEntries {α : Type} (check : String → α → Outcome Unit) :
    List (String × α) → Outcome Unit
  | [] => .ok ()
  | entry :: entries => do
      check entry.1 entry.2
      checkEntries check entries

def assertCheckpointWithinLimits (label : String) (checkpoint : AttemptCheckpoint) :
    Outcome Unit := do
  throwIf (checkpoint.summary = "") s!"{label}.summary is required."
  throwIf (MAX_ORCHESTRATION_CHECKPOINT_SUMMARY_LENGTH < utf16Length checkpoint.summary)
    s!"{label}.summary exceeds its durable size bound."
  assertBoundedIdentifierList checkpoint.artifactIds MAX_ORCHESTRATION_COLLECTION_LENGTH
    s!"{label}.artifactIds"
  assertBoundedIdentifierList checkpoint.evidenceIds MAX_ORCHESTRATION_COLLECTION_LENGTH
    s!"{label}.evidenceIds"

def assertRetainedProjectionNestedCollections (projection : TaskRuntimeProjection)
    (label : String) : Outcome Unit := do
  checkEntries
    (fun objectiveId state => do
      assertBoundedIdentifierList state.taskIds MAX_ORCHESTRATION_TASKS
        s!"{label}.objectives.{objectiveId}.taskIds"
      throwIf (MAX_ORCHESTRATION_OBJECTIVE_EVIDENCE < state.evidence.length)
        s!"Orchestration objective evidence limit ({
          MAX_ORCHESTRATION_OBJECTIVE_EVIDENCE}) exceeded.")
    projection.objectives.entries
  throwIf
    (MAX_ORCHESTRATION_EVIDENCE <
      (projection.objectives.values.map fun state => state.evidence.length).sum)
    s!"Orchestration evidence limit ({MAX_ORCHESTRATION_EVIDENCE}) exceeded."
  checkEntries
    (fun taskId state => assertBoundedIdentifierList state.attemptIds MAX_ORCHESTRATION_ATTEMPTS
      s!"{label}.tasks.{taskId}.attemptIds")
    projection.tasks.entries
  checkEntries
    (fun attemptId attempt =>
      assertBoundedIdentifierList attempt.checkpointIds MAX_ORCHESTRATION_CHECKPOINTS
        s!"{label}.attempts.{attemptId}.checkpointIds")
    projection.attempts.entries
  checkEntries
    (fun checkpointId checkpoint =>
      assertCheckpointWithinLimits s!"{label}.checkpoints.{checkpointId}" checkpoint)
    projection.checkpoints.entries

def assertProjectionWithinLimits (env : Environment) (projection : TaskRuntimeProjection) :
    Outcome Unit := do
  let reservedBytes ← hostEventCapacity env projection.toHostEventProjection
  assertRecordWithinLimit projection.agents MAX_ORCHESTRATION_AGENT_BINDINGS "agent binding"
  assertRecordWithinLimit projection.objectives MAX_ORCHESTRATION_OBJECTIVES "objective"
  assertRecordWithinLimit projection.tasks MAX_ORCHESTRATION_TASKS "task"
  assertRecordWithinLimit projection.attempts MAX_ORCHESTRATION_ATTEMPTS "attempt"
  assertRecordWithinLimit projection.checkpoints MAX_ORCHESTRATION_CHECKPOINTS "checkpoint"
  assertRecordWithinLimit projection.approvals MAX_ORCHESTRATION_APPROVALS "approval"
  assertRecordWithinLimit projection.notifications MAX_ORCHESTRATION_NOTIFICATIONS "notification"
  assertRetainedProjectionNestedCollections projection "orchestration projection"
  throwIf
    (MAX_ORCHESTRATION_PROJECTION_BYTES <
      env.projectionSerializedBytes projection + reservedBytes)
    "Orchestration projection lacks reserved host event settlement bytes."

end PiAdaptative.TaskRuntime
