import PiAdaptative.TaskRuntime.State

/-!
# Verification identity

Which attempt an independent review is about.  A verifier names its subject attempt; a historical
verifier without that binding is usable only while one possible subject exists.
-/

namespace PiAdaptative.TaskRuntime

/-- The native agent owning a bound attempt, or the intended agent of a queued native turn. -/
def nativeAgentIdForAttempt (attempt : AttemptRuntimeState) : Option String :=
  if attempt.dispatch.executionKind = some .managedProcess then none
  else attempt.agentId <|> attempt.dispatch.logicalLaneId

def assertAttemptAgentBinding (attempt : AttemptRuntimeState) : Outcome Unit :=
  throwIf (attempt.agentId.isSome = true ∧ nativeAgentIdForAttempt attempt ≠ attempt.agentId)
    "A managed process cannot lease a native agent binding."

def attemptTurnOrigin (attempt : AttemptRuntimeState) : Option TurnOriginRecord :=
  attempt.admittedTurnOrigin <|> attempt.dispatch.turnOrigin

/-- The live attempt among the listed ones, otherwise the first of them that is retained. -/
def selectedAmong (attempts : Record AttemptRuntimeState) (latest : Option AttemptRuntimeState) :
    List String → Option AttemptRuntimeState
  | [] => latest
  | attemptId :: attemptIds =>
      match attempts.get? attemptId with
      | none => selectedAmong attempts latest attemptIds
      | some attempt =>
          if terminalAttemptStatus attempt.status = false then some attempt
          else selectedAmong attempts (latest <|> some attempt) attemptIds

/-- Current task generation: its live attempt, otherwise its last retained attempt. -/
def selectedTaskAttempt (tasks : Record TaskRuntimeState) (attempts : Record AttemptRuntimeState)
    (taskId : String) : Option AttemptRuntimeState :=
  match tasks.get? taskId with
  | none => none
  | some state => selectedAmong attempts none state.attemptIds.reverse

/-- The next action a result states when it needs independent verification. -/
def INDEPENDENT_VERIFICATION_REQUIRED : String := "independent_verification_required"

/-- Whether an attempt's result asks for independent verification. -/
def requiresVerification (attempt : AttemptRuntimeState) : Bool :=
  attempt.result.any fun result => result.nextAction = some INDEPENDENT_VERIFICATION_REQUIRED

def only? {α : Type} : List α → Option α
  | [entry] => some entry
  | _ => none

/-- Attempts of a task that an unbound verifier already settled. -/
def settledBy (attempts : Record AttemptRuntimeState) (verifierTaskId : String)
    (attemptIds : List String) : List AttemptRuntimeState :=
  attemptIds.filterMap fun attemptId =>
    (attempts.get? attemptId).filter fun attempt =>
      attempt.verification.any fun verdict => verdict.verifierTaskId = verifierTaskId

/-- Attempts of a task that a verifier may be about. -/
def subjectCandidates (attempts : Record AttemptRuntimeState) (taskId : String)
    (boundAttemptId : Option String) (attemptIds : List String) : List AttemptRuntimeState :=
  attemptIds.filterMap fun attemptId =>
    if boundAttemptId.all (· = attemptId) then
      (attempts.get? attemptId).filter fun attempt =>
        attempt.taskId = taskId ∧ requiresVerification attempt = true
    else none

def verificationSubjectAttempt (tasks : Record TaskRuntimeState)
    (attempts : Record AttemptRuntimeState) (verifier : TaskContract) :
    Option AttemptRuntimeState := do
  let taskId ← verifier.verificationOfTaskId
  let subject ← tasks.get? taskId
  let settled := settledBy attempts verifier.taskId subject.attemptIds
  if verifier.verificationOfAttemptId = none ∧ settled ≠ [] then only? settled
  else
    only? (subjectCandidates attempts taskId verifier.verificationOfAttemptId subject.attemptIds)

/-- `attemptVerification`: shared by replay validation, recovery, scheduling and every projection
of a result. -/
def attemptVerification (tasks : Record TaskRuntimeState) (attempts : Record AttemptRuntimeState)
    (attempt : AttemptRuntimeState) : Option AttemptVerification :=
  if requiresVerification attempt = false then none
  else
    match attempt.verification with
    | some verification => some verification
    | none => do
        let state ← tasks.get? attempt.taskId
        let historical ← state.verification
        let verifier ← tasks.get? historical.verifierTaskId
        let subject ← verificationSubjectAttempt tasks attempts verifier.task
        if subject.attemptId = attempt.attemptId then
          some { historical with subjectAttemptId := attempt.attemptId }
        else none

def taskAwaitsVerification (tasks : Record TaskRuntimeState)
    (attempts : Record AttemptRuntimeState) (taskId : String) : Bool :=
  match selectedTaskAttempt tasks attempts taskId with
  | none => false
  | some attempt =>
      requiresVerification attempt && (attemptVerification tasks attempts attempt).isNone

/-- A review settles evidence; it cannot reverse a different task workflow decision. -/
def taskStatusWithVerification (status : TaskStatus) (verdict : Option VerificationVerdict) :
    TaskStatus :=
  if status ≠ .blocked ∧ status ≠ .completed then status
  else if verdict = some .accepted then .completed
  else .blocked

/-- New execution must not consume an unverified dependency. -/
def assertVerificationDependenciesReady (tasks : Record TaskRuntimeState)
    (attempts : Record AttemptRuntimeState) (attempt : AttemptRuntimeState) : Outcome Unit :=
  match tasks.get? attempt.taskId with
  | none => .ok ()
  | some state =>
      match state.task.dependsOn.find? (taskAwaitsVerification tasks attempts) with
      | none => .ok ()
      | some taskId => .error (.durable
          s!"Dependency '{taskId}' is awaiting verification of its current attempt.")

/-- Whether a property of retained metadata is a text. -/
def metadataText (metadata : Option Json) (name text : String) : Bool :=
  match metadata.bind fun present => present.field name with
  | some (.str value) => value = text
  | _ => false

/-- Whether a result holds trusted review evidence of a verdict. -/
def reviewEvidenceMatches (verifier : TaskContract) (taskId : String)
    (verdict : VerificationVerdict) (evidence : EvidenceContract) : Bool :=
  evidence.trusted && evidence.kind = .review &&
    metadataText evidence.metadata "subjectTaskId" taskId &&
    metadataText evidence.metadata "verdict" verdict.text &&
    verifier.verificationOfAttemptId.all fun attemptId =>
      metadataText evidence.metadata "subjectAttemptId" attemptId

def assertVerificationRecord (tasks : Record TaskRuntimeState)
    (attempts : Record AttemptRuntimeState) (taskId : String) (verification : VerificationRecord)
    (subjectAttemptId : Option String) : Outcome Unit :=
  match tasks.get? verification.verifierTaskId, attempts.get? verification.verifierAttemptId with
  | some verifierState, some reviewer => do
      let verifier := verifierState.task
      throwIf
        (verifier.verificationOfTaskId ≠ some taskId ∨ reviewer.taskId ≠ verifier.taskId ∨
          terminalAttemptStatus reviewer.status = false ∨
          verification.verdict = .accepted ∧ reviewer.status ≠ .completed)
        s!"Invalid verification record for task '{taskId}'."
      let subject := verificationSubjectAttempt tasks attempts verifier
      throwIf
        (subjectAttemptId.isSome = true ∧
          subject.map AttemptRuntimeState.attemptId ≠ subjectAttemptId)
        s!"Verification does not identify subject attempt '{shown subjectAttemptId}'."
      throwIf
        (verification.verdict ≠ .inconclusive ∧
          reviewer.result.any (fun result =>
            result.evidence.any (reviewEvidenceMatches verifier taskId verification.verdict))
            = false)
        s!"Verification for task '{taskId}' lacks matching trusted review evidence."
  | _, _ => .error (.durable s!"Invalid verification record for task '{taskId}'.")

end PiAdaptative.TaskRuntime
