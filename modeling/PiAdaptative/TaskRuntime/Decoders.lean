import PiAdaptative.Foundations.Platform
import PiAdaptative.TaskRuntime.Contracts

/-!
# Delegated decoders

Dispatch and receipt subtrees whose decoders the runtime calls without reading what they return,
beyond the fields named here.  They are parameters: everything proved of the runtime holds for
every behaviour of these decoders.
-/

namespace PiAdaptative.TaskRuntime

/-- A materialised worker contract: the two fields the runtime reads and the retained record. -/
structure WorkerExecutionContract where
  /-- `worker.profile.profileId`. -/
  profileId : String
  /-- `worker.profile.role`. -/
  role : WorkerRole
  retained : Json

/-- The platform together with the decoders of retained subtrees. -/
structure Decoders extends Platform where
  /-- `parseKnowledgeGrantReferences`. -/
  parseKnowledgeGrantReferences : Json → Outcome Json
  /-- `parseTaskBrief`. -/
  parseTaskBrief : Json → Outcome Json
  /-- `renderTaskBrief`. -/
  renderTaskBrief : Json → String
  /-- `parseWorkerExecutionContract`. -/
  parseWorkerExecutionContract : Json → Outcome WorkerExecutionContract
  /-- `normalizeWorkerContextForkReference`. -/
  normalizeWorkerContextForkReference : Json → Outcome Json
  /-- `normalizeSpecialistContextOwnership` of a busy claim; `none` where it throws. -/
  normalizeContextClaim : Json → Option Json
  /-- `decodeClaimReceipts` within a byte bound. -/
  decodeClaimReceipts : Json → Nat → Option Json
  /-- `boundedRedactedDiagnosticText`. -/
  boundedRedactedDiagnosticText : String → String

end PiAdaptative.TaskRuntime
