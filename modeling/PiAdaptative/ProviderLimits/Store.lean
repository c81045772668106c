import PiAdaptative.Session.ActiveTask
import Mathlib.Data.Rat.Defs
import Mathlib.Logic.Function.Basic

/-!
# The shared provider limits

One file for each account key says until when the provider refuses requests of that account.  Every
process on the agent directory reads and writes the same files, each call under the lock of its file.
Times are exact.
-/

namespace PiAdaptative.ProviderLimits

inductive ProviderLimitReason where
  | rateLimit
  | overloaded
  | usageWindow
  deriving DecidableEq, Repr

/-- What the file of an account key holds. -/
structure ProviderLimitRecord where
  provider : String
  limitedUntil : Rat
  reason : ProviderLimitReason
  recordedAt : Rat
  pid : Int
  sessionId : Option String
  detail : Option String
  deriving DecidableEq

structure ProviderCredits where
  hasCredits : Bool
  unlimited : Bool
  balance : Option String
  deriving DecidableEq, Repr

/-- The last subscription windows a provider reported for an account. -/
structure ProviderUsageRecord where
  provider : String
  recordedAt : Rat
  pid : Int
  rateLimits : List Json
  credits : Option ProviderCredits

structure ProviderLimitStoreOptions where
  pid : Int
  sessionId : Option String
  deriving DecidableEq, Repr

structure LimitInput where
  limitedUntil : Rat
  reason : ProviderLimitReason
  detail : Option String
  deriving DecidableEq

/-- A clear spares the limits recorded from this time on. -/
inductive RecordedBefore where
  /-- The start of the request is not known. -/
  | never
  | time (start : Rat)
  | always
  deriving DecidableEq

/-- Whether a limit recorded at a time is older than the bound. -/
def RecordedBefore.admits : RecordedBefore → Rat → Bool
  | .never, _ => false
  | .time start, recordedAt => recordedAt < start
  | .always, _ => true

def MAX_DETAIL_LENGTH : Nat := 500

/-- Whether a character stays in a file name. -/
def isSafeCharacter (unit : Char) : Bool :=
  unit.isAlphanum || unit = '_' || unit = '-'

/-- The file name of a key: other code units become underscores, and the end is cut. -/
def safeSegment (value : String) : String :=
  let safe := value.toList.flatMap fun unit =>
    if isSafeCharacter unit then [unit]
    else List.replicate (if unit.val < 0x10000 then 1 else 2) '_'
  if safe.take 64 = [] then "provider" else String.ofList (safe.take 64)

abbrev LimitFiles := String → Option ProviderLimitRecord

/-- Read a limit file and remove a record that has expired. -/
def readPath (files : LimitFiles) (path : String) (now : Rat) :
    Option ProviderLimitRecord × LimitFiles :=
  match files path with
  | none => (none, files)
  | some parsed =>
      if parsed.limitedUntil ≤ now then (none, Function.update files path none)
      else (some parsed, files)

def writtenRecord (options : ProviderLimitStoreOptions) (provider : String) (input : LimitInput)
    (nowMs : Rat) : ProviderLimitRecord where
  provider := provider
  limitedUntil := input.limitedUntil
  reason := input.reason
  recordedAt := nowMs
  pid := options.pid
  sessionId := truthy options.sessionId
  detail := (truthy input.detail).map fun detail => Session.clampText detail MAX_DETAIL_LENGTH

/-- `ProviderLimitStore.record`: `nowMs` is the clock before the file is read, `checked` after. -/
def record (options : ProviderLimitStoreOptions) (files : LimitFiles) (provider : String)
    (input : LimitInput) (nowMs checked : Rat) : ProviderLimitRecord × LimitFiles :=
  let path := safeSegment provider
  let written := writtenRecord options provider input nowMs
  match readPath files path checked with
  | (some existing, kept) =>
      if input.limitedUntil ≤ existing.limitedUntil then (existing, kept)
      else (written, Function.update kept path (some written))
  | (none, kept) => (written, Function.update kept path (some written))

/-- Whether a clear names a limit with this reason and this time of recording. -/
def names (reasons : Option (List ProviderLimitReason)) (recordedBefore : RecordedBefore)
    (reason : ProviderLimitReason) (recordedAt : Rat) : Bool :=
  recordedBefore.admits recordedAt && reasons.all fun reasons => reasons.contains reason

/-- `ProviderLimitStore.clear`. -/
def clear (files : LimitFiles) (provider : String) (reasons : Option (List ProviderLimitReason))
    (recordedBefore : RecordedBefore) (now : Rat) : Bool × LimitFiles :=
  let path := safeSegment provider
  match readPath files path now with
  | (none, kept) => (false, kept)
  | (some existing, kept) =>
      if recordedBefore.admits existing.recordedAt = false then (false, kept)
      else if reasons.all (fun reasons => reasons.contains existing.reason) = false then
        (false, kept)
      else (true, Function.update kept path none)

/-- Whether the account of a record reports credits beside an exhausted window. -/
def coveredByCredits (usage : String → Option ProviderUsageRecord)
    (limit : ProviderLimitRecord) : Bool :=
  limit.reason = .usageWindow &&
    ((usage (safeSegment limit.provider)).bind ProviderUsageRecord.credits).any fun credits =>
      credits.unlimited || credits.hasCredits

/-- `ProviderLimitStore.read`. -/
def read (files : LimitFiles) (usage : String → Option ProviderUsageRecord) (provider : String)
    (now : Rat) : Option ProviderLimitRecord × LimitFiles :=
  let (found, kept) := readPath files (safeSegment provider) now
  (found.filter fun limit => !coveredByCredits usage limit, kept)

inductive StopReason where
  | stop
  | error
  | aborted
  deriving DecidableEq, Repr

/-- What a response says beside its text about the account. -/
inductive Diagnostic where
  /-- `openai_codex_subscription_rate_limits`. -/
  | openaiCodexSubscriptionRateLimits (rateLimits : Option (List Json))
      (credits : Option ProviderCredits)
  /-- `anthropic_subscription_rate_limits`. -/
  | anthropicSubscriptionRateLimits (status : Option String) (resetsAt : Option Rat)
      (representativeClaim detail : Option String)
  | other

structure AssistantMessage where
  provider : String
  stopReason : StopReason
  errorMessage : Option String
  diagnostics : List Diagnostic

inductive Call where
  | record (key : String) (input : LimitInput)
  | clear (key : String) (reasons : Option (List ProviderLimitReason))
      (recordedBefore : RecordedBefore)
  | read (key : String)
  | recordUsage (key : String) (rateLimits : List Json) (credits : Option ProviderCredits)

def Call.key : Call → String
  | .record key _ => key
  | .clear key _ _ => key
  | .read key => key
  | .recordUsage key _ _ => key

/-- What is read out of the texts of a response. -/
structure MessageReading where
  providerLimitFromFailure : (provider errorMessage : String) → (nowMs : Rat) → Option LimitInput
  /-- The latest reset of the exhausted windows, with its description. -/
  usageWindowLimit : List Json → (nowMs : Rat) → Option (Rat × String)

/-- The limit that Anthropic reports for a subscription. -/
def anthropicLimit (nowMs : Rat) (status : Option String) (resetsAt : Option Rat)
    (representativeClaim detail : Option String) : Option LimitInput :=
  let isRejected := status = some "rejected"
  let isFuture := resetsAt.any fun resetsAt => nowMs < resetsAt * 1000
  if isRejected ∨ (status ≠ some "allowed" ∧ isFuture) then
    resetsAt.map fun resetsAt =>
      let detailParts := (truthy representativeClaim).toList ++
        (truthy status).toList.map fun status => "status " ++ status
      { limitedUntil := resetsAt * 1000
        reason := .rateLimit
        detail := some (detail.getD
          (if detailParts = [] then "anthropic subscription rate limit"
          else "anthropic subscription rate limit (" ++ ", ".intercalate detailParts ++ ")")) }
  else none

def diagnosticCalls (reading : MessageReading) (nowMs : Rat) (provider : String) :
    Diagnostic → List Call
  | .openaiCodexSubscriptionRateLimits none _ => []
  | .openaiCodexSubscriptionRateLimits (some rateLimits) credits =>
      .recordUsage provider rateLimits credits ::
        ((reading.usageWindowLimit rateLimits nowMs).map fun (limitedUntil, detail) =>
          Call.record provider { limitedUntil, reason := .usageWindow, detail := some detail }).toList
  | .anthropicSubscriptionRateLimits status resetsAt representativeClaim detail =>
      ((anthropicLimit nowMs status resetsAt representativeClaim detail).map fun limit =>
        Call.record provider limit).toList
  | .other => []

/-- The calls `observeProviderResult` makes, one after the other. -/
def observeProviderResult (reading : MessageReading) (message : AssistantMessage) (nowMs : Rat)
    (key : String) (requestStartedAt : RecordedBefore) : List Call :=
  (match message.stopReason with
    | .error =>
        ((reading.providerLimitFromFailure message.provider (message.errorMessage.getD "")
          nowMs).map fun limit => Call.record key limit).toList
    | .aborted => []
    | .stop => [.clear key (some [.rateLimit, .overloaded]) requestStartedAt]) ++
    message.diagnostics.flatMap (diagnosticCalls reading nowMs key)

end PiAdaptative.ProviderLimits
