import PiAdaptative.TaskRuntime.AttemptCodecs
import PiAdaptative.TaskRuntime.VerificationIdentity

/-!
# Worker receipt publication

Which retained results may be published to their parent, and the physical receipts that
acknowledge a publication.
-/

namespace PiAdaptative.TaskRuntime

open HostEvents

/-- The publication of an accepted result, without the facts it carries. -/
structure WorkerReceiptPublication where
  receiptId : String
  resultId : String
  factsDigest : String
  verifierAttemptId : Option String
  parentReviewRequired : Bool

/-- `receiptId`. -/
def workerReceiptId (env : Decoders) (origin : WorkerReceiptOrigin) (attemptId resultId : String) :
    String :=
  env.sha256 (env.stringify (.arr
    [.str origin.sessionId, (origin.sessionFile.map Json.str).getD .null, .str origin.leafId,
      .str attemptId, .str resultId]))

def unverifiedWorkerReceiptCandidate (env : Decoders) (attempt : AttemptRuntimeState) :
    Option WorkerReceiptPublication := do
  let result ← attempt.result
  let origin ← attempt.dispatch.receiptOrigin
  match result.receipts with
  | some (.captured _ factsDigest acceptance) =>
      guard (acceptance.disposition ≠ "rejected")
      guard (attempt.status = .completed ∨ attempt.status = .partly)
      guard (result.status.attemptStatus = attempt.status ∧ result.attemptId = attempt.attemptId ∧
        result.taskId = attempt.taskId)
      let required := acceptance.verificationRequired
      guard (required = requiresVerification attempt)
      let reviewRequired := acceptance.disposition == "parent_review"
      guard (result.status =
        if required = true ∨ reviewRequired = true then .partly else .completed)
      return { receiptId := workerReceiptId env origin attempt.attemptId result.resultId
               resultId := result.resultId
               factsDigest
               verifierAttemptId := none
               parentReviewRequired := reviewRequired }
  | _ => none

/-- `workerReceiptCandidate`: only an accepted verdict publishes a result that needs one. -/
def workerReceiptCandidate (env : Decoders) (tasks : Record TaskRuntimeState)
    (attempts : Record AttemptRuntimeState) (attempt : AttemptRuntimeState) :
    Option WorkerReceiptPublication := do
  let candidate ← unverifiedWorkerReceiptCandidate env attempt
  if requiresVerification attempt = false then return candidate
  else
    let verification ← attemptVerification tasks attempts attempt
    guard (verification.verdict = .accepted)
    return { candidate with verifierAttemptId := some verification.verifierAttemptId }

def assertWorkerReceiptAcknowledgement (env : Decoders) (tasks : Record TaskRuntimeState)
    (attempts : Record AttemptRuntimeState) (attempt : AttemptRuntimeState)
    (acknowledgement : WorkerReceiptAcknowledgement) : Outcome Unit :=
  match workerReceiptCandidate env tasks attempts attempt with
  | none => .error (.durable
      "Worker receipt acknowledgement does not match its accepted result.")
  | some candidate => do
      throwIf
        (acknowledgement.receiptId ≠ candidate.receiptId ∨
          acknowledgement.resultId ≠ candidate.resultId ∨
          acknowledgement.factsDigest ≠ candidate.factsDigest ∨
          acknowledgement.verifierAttemptId ≠ candidate.verifierAttemptId ∨
          candidate.parentReviewRequired ≠ acknowledgement.parentReviewEntryId.isSome)
        "Worker receipt acknowledgement does not match its accepted result."
      throwIf
        (attempt.receiptAcknowledgement.any (fun prior => prior ≠ acknowledgement) = true)
        "Worker receipt acknowledgement conflicts with its prior publication."

end PiAdaptative.TaskRuntime
