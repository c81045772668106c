import PiAdaptative.TaskRuntime.State

/-!
# Attempt usage accounting

Cumulative usage of one attempt and its attribution to lease generations.  A generation starts
from the total at its registration, so the accounted total is the first baseline plus what every
generation reported above its own baseline, summed in fence order.
-/

namespace PiAdaptative.TaskRuntime

def EMPTY_ATTEMPT_USAGE : AttemptUsageSnapshot where
  toolCalls := 0
  inputTokens := 0
  outputTokens := 0
  cacheReadTokens := 0
  cacheWriteTokens := 0
  totalTokens := 0
  costUsd := 0
  activeWallClockMs := 0

/-- A counter must be a non-negative safe integer. -/
def usageCounter (quantity : Rat) (label : String) : Outcome Unit :=
  throwPlainIf (isSafeInteger quantity = false ∨ quantity < 0)
    s!"{label} must be a non-negative safe integer."

/-- A measure must be non-negative; a rational is always finite. -/
def usageMeasure (quantity : Rat) (label : String) : Outcome Unit :=
  throwPlainIf (quantity < 0) s!"{label} must be finite and non-negative."

def validateAttemptUsageSnapshot (usage : AttemptUsageSnapshot)
    (label : String := "attempt usage") : Outcome AttemptUsageSnapshot := do
  usageCounter usage.toolCalls s!"{label}.toolCalls"
  usageCounter usage.inputTokens s!"{label}.inputTokens"
  usageCounter usage.outputTokens s!"{label}.outputTokens"
  usageCounter usage.cacheReadTokens s!"{label}.cacheReadTokens"
  usageCounter usage.cacheWriteTokens s!"{label}.cacheWriteTokens"
  usageCounter usage.totalTokens s!"{label}.totalTokens"
  usageMeasure usage.costUsd s!"{label}.costUsd"
  usageMeasure usage.activeWallClockMs s!"{label}.activeWallClockMs"
  return usage

/-- A snapshot combined with another, component by component. -/
def AttemptUsageSnapshot.combine (operation : Rat → Rat → Rat)
    (left right : AttemptUsageSnapshot) : AttemptUsageSnapshot where
  toolCalls := operation left.toolCalls right.toolCalls
  inputTokens := operation left.inputTokens right.inputTokens
  outputTokens := operation left.outputTokens right.outputTokens
  cacheReadTokens := operation left.cacheReadTokens right.cacheReadTokens
  cacheWriteTokens := operation left.cacheWriteTokens right.cacheWriteTokens
  totalTokens := operation left.totalTokens right.totalTokens
  costUsd := operation left.costUsd right.costUsd
  activeWallClockMs := operation left.activeWallClockMs right.activeWallClockMs

/-- The components of a snapshot, in the order of `EMPTY_ATTEMPT_USAGE`. -/
def AttemptUsageSnapshot.components (usage : AttemptUsageSnapshot) : List Rat :=
  [usage.toolCalls, usage.inputTokens, usage.outputTokens, usage.cacheReadTokens,
    usage.cacheWriteTokens, usage.totalTokens, usage.costUsd, usage.activeWallClockMs]

def addAttemptUsage (base delta : AttemptUsageSnapshot) (label : String := "attempt usage") :
    Outcome AttemptUsageSnapshot := do
  let _ ← validateAttemptUsageSnapshot base s!"{label} base"
  let _ ← validateAttemptUsageSnapshot delta s!"{label} delta"
  validateAttemptUsageSnapshot (base.combine (· + ·) delta) label

/-- `attemptUsageIncrease`: cumulative reports may not decrease. -/
def attemptUsageIncrease (reported previous : AttemptUsageSnapshot) :
    Outcome AttemptUsageSnapshot := do
  let _ ← validateAttemptUsageSnapshot reported
  let _ ← validateAttemptUsageSnapshot previous
  let delta := reported.combine (· - ·) previous
  throwPlainIf (delta.components.any (fun quantity => quantity < 0) = true)
    "Attempt usage cannot decrease."
  validateAttemptUsageSnapshot delta

/-- The lease a usage report belongs to. -/
structure AttemptUsageGenerationIdentity where
  leaseId : String
  fencingToken : Nat

/-- The registered generation of a lease, whose fence must match. -/
def findUsageGeneration (accounting : AttemptUsageAccounting)
    (identity : AttemptUsageGenerationIdentity) : Outcome (Option AttemptUsageGeneration) :=
  match accounting.generations.get? identity.leaseId with
  | none => .ok none
  | some generation => do
      throwPlainIf (generation.fencingToken ≠ identity.fencingToken)
        "Usage generation fence does not match its registered lease."
      return some generation

def orderedGenerations (generations : Record AttemptUsageGeneration) :
    List AttemptUsageGeneration :=
  generations.values.mergeSort fun left right => left.fencingToken ≤ right.fencingToken

/-- Add what each generation reported above its baseline. -/
def addGenerationUsage (total : AttemptUsageSnapshot) :
    List AttemptUsageGeneration → Outcome AttemptUsageSnapshot
  | [] => .ok total
  | generation :: generations => do
      let increase ← attemptUsageIncrease generation.reported generation.baseline
      let next ← addAttemptUsage total increase "generation accounting"
      addGenerationUsage next generations

def totalAttemptGenerationUsage (generations : Record AttemptUsageGeneration) :
    Outcome AttemptUsageSnapshot :=
  match orderedGenerations generations with
  | [] => .error (.plain "Usage accounting requires a registered generation.")
  | first :: rest => do
      let total ← validateAttemptUsageSnapshot first.baseline
      addGenerationUsage total (first :: rest)

/-- Register a generation that starts from the given baseline. -/
def registerGeneration (accounting : Option AttemptUsageAccounting)
    (identity : AttemptUsageGenerationIdentity) (baseline : AttemptUsageSnapshot) :
    Outcome AttemptUsageAccounting := do
  let total ← validateAttemptUsageSnapshot baseline "usage generation baseline"
  let generations := (accounting.map AttemptUsageAccounting.generations).getD .empty
  return {
    total
    generations := generations.set identity.leaseId
      { fencingToken := identity.fencingToken, baseline := total, reported := total } }

def beginAttemptUsageGeneration (accounting : Option AttemptUsageAccounting)
    (identity : AttemptUsageGenerationIdentity)
    (recoveryBaseline : Option AttemptUsageSnapshot) : Outcome AttemptUsageAccounting :=
  match accounting with
  | none =>
      match recoveryBaseline with
      | none => .error (.plain "Initial usage accounting requires a baseline.")
      | some baseline => registerGeneration none identity baseline
  | some registeredAccounting => do
      match ← findUsageGeneration registeredAccounting identity with
      | some registered =>
          match recoveryBaseline with
          | none => return registeredAccounting
          | some baseline =>
              let replayed ← validateAttemptUsageSnapshot baseline "usage generation baseline"
              throwPlainIf (replayed ≠ registered.baseline)
                "Usage generation registration has a conflicting baseline."
              return registeredAccounting
      | none =>
          throwPlainIf (recoveryBaseline.isSome = true)
            "Recovery baseline is only valid before accounting begins."
          throwPlainIf
            (registeredAccounting.generations.values.any
              (fun generation => generation.fencingToken == identity.fencingToken) = true)
            "Usage generation fence is already registered to another lease."
          registerGeneration accounting identity registeredAccounting.total

def recordAttemptGenerationUsage (accounting : AttemptUsageAccounting)
    (identity : AttemptUsageGenerationIdentity) (usage : AttemptUsageSnapshot) :
    Outcome AttemptUsageAccounting := do
  match ← findUsageGeneration accounting identity with
  | none => .error (.plain "Usage generation is not registered.")
  | some generation =>
      let reported ← validateAttemptUsageSnapshot usage "generation usage report"
      let delta ← attemptUsageIncrease reported generation.reported
      if delta.components.all (· == 0) = true then return accounting
      else
        let generations := accounting.generations.set identity.leaseId { generation with reported }
        let total ← totalAttemptGenerationUsage generations
        return { total, generations }

/-- `projectAttemptUsage`: accounting supersedes execution checkpoints. -/
def projectAttemptUsage (attempt : AttemptRuntimeState) (checkpoints : Record AttemptCheckpoint) :
    Option AttemptUsageSnapshot :=
  match attempt.usageAccounting with
  | some accounting => some accounting.total
  | none => attempt.checkpointIds.reverse.findSome? fun checkpointId =>
      (checkpoints.get? checkpointId).bind AttemptCheckpoint.usage

end PiAdaptative.TaskRuntime
