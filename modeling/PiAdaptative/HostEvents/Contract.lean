import PiAdaptative.TaskRuntime.Decoders

/-!
# Host event contract

Events a host source publishes, the position bookkeeping of one consumer's custody, and the strict
parsers of the durable payloads.  Positions are natural numbers; every parser rejects a number that
is not a safe integer in its range.
-/

namespace PiAdaptative.HostEvents

open TaskRuntime

def MAX_HOST_EVENT_SOURCES : Nat := 32

def MAX_HOST_EVENTS : Nat := 256

def MAX_HOST_EVENT_SUBSCRIPTIONS : Nat := 512

def MAX_HOST_EVENT_DELIVERIES : Nat := 2048

def MAX_HOST_EVENT_SUBJECTS : Nat := 64

def MAX_HOST_EVENT_SUBSCRIPTIONS_PER_TASK : Nat := 8

def MAX_HOST_EVENT_TARGETS : Nat := 64

/-- Byte ceiling of the retained host event state. -/
def MAX_HOST_EVENT_DOMAIN_BYTES : Nat := 8 * 1024 * 1024

/-- Recall window of a CI attempt. -/
def HOST_EVENT_RECALL_MS : Int := 7 * 24 * 60 * 60 * 1000

def GITHUB_RECALL_MS : Int := 24 * 60 * 60 * 1000

/-- UTF-8 bound of a retained body. -/
def MAX_GITHUB_EVENT_BODY_BYTES : Nat := 4 * 1024

def MAX_GITHUB_LOGIN_LENGTH : Nat := 39

/-- Past this many ranges the two lowest unaccepted ranges of a source coalesce. -/
def MAX_HOST_EVENT_UNACCEPTED_RANGES : Nat := 256

structure CiSubject where
  host : String
  repositoryId : Nat
  workflowId : Nat
  headSha : String
  deriving DecidableEq

inductive CiTerminalConclusion where
  | success | failure | cancelled | skipped | neutral | timedOut | actionRequired | stale
  | startupFailure
  deriving DecidableEq

/-- `CI_TERMINAL_CONCLUSIONS`. -/
def CiTerminalConclusion.all : List CiTerminalConclusion :=
  [.success, .failure, .cancelled, .skipped, .neutral, .timedOut, .actionRequired, .stale,
    .startupFailure]

def CiTerminalConclusion.text : CiTerminalConclusion → String
  | success => "success"
  | failure => "failure"
  | cancelled => "cancelled"
  | skipped => "skipped"
  | neutral => "neutral"
  | timedOut => "timed_out"
  | actionRequired => "action_required"
  | stale => "stale"
  | startupFailure => "startup_failure"

structure CiAttemptIdentity where
  host : String
  repositoryId : Nat
  workflowId : Nat
  runId : Nat
  runAttempt : Nat
  runNumber : Nat
  deriving DecidableEq

structure CiAttemptTerminalEvent where
  eventId : String
  identity : CiAttemptIdentity
  headSha : String
  conclusion : CiTerminalConclusion
  workflowPath : String
  observedAt : String
  runUrl : String
  payloadDigest : String
  deriving DecidableEq

inductive GithubThreadEventKind where
  | pullRequestComment | reviewComment | reviewSubmitted | reviewRequested | issueAssigned
  | pullRequestMerged | pullRequestClosed
  deriving DecidableEq

/-- `GITHUB_THREAD_EVENT_KINDS`. -/
def GithubThreadEventKind.all : List GithubThreadEventKind :=
  [.pullRequestComment, .reviewComment, .reviewSubmitted, .reviewRequested, .issueAssigned,
    .pullRequestMerged, .pullRequestClosed]

def GithubThreadEventKind.text : GithubThreadEventKind → String
  | pullRequestComment => "pull-request-comment"
  | reviewComment => "review-comment"
  | reviewSubmitted => "review-submitted"
  | reviewRequested => "review-requested"
  | issueAssigned => "issue-assigned"
  | pullRequestMerged => "pull-request-merged"
  | pullRequestClosed => "pull-request-closed"

inductive GithubReviewState where
  | approved | changesRequested | commented | dismissed
  deriving DecidableEq

/-- `GITHUB_REVIEW_STATES`. -/
def GithubReviewState.all : List GithubReviewState :=
  [.approved, .changesRequested, .commented, .dismissed]

def GithubReviewState.text : GithubReviewState → String
  | approved => "approved"
  | changesRequested => "changes_requested"
  | commented => "commented"
  | dismissed => "dismissed"

structure GithubEventBody where
  text : String
  truncated : Bool
  bytes : Nat
  deriving DecidableEq

/-- One occurrence on a pull request or issue thread. -/
structure GithubThreadEvent where
  kind : GithubThreadEventKind
  eventId : String
  githubId : Nat
  host : String
  repositoryId : Nat
  number : Nat
  pullRequest : Bool
  branch : Option String
  ownedByViewer : Bool
  author : String
  occurredAt : String
  url : String
  body : Option GithubEventBody
  state : Option GithubReviewState
  payloadDigest : String
  deriving DecidableEq

inductive HostEventPayload where
  | ci (event : CiAttemptTerminalEvent)
  | github (event : GithubThreadEvent)
  deriving DecidableEq

/-- `event.eventId`. -/
def HostEventPayload.eventId : HostEventPayload → String
  | ci event => event.eventId
  | github event => event.eventId

/-- `event.payloadDigest`. -/
def HostEventPayload.payloadDigest : HostEventPayload → String
  | ci event => event.payloadDigest
  | github event => event.payloadDigest

/-- `HOST_EVENT_KINDS[event.kind].recallMs`. -/
def HostEventPayload.recallMs : HostEventPayload → Int
  | ci _ => HOST_EVENT_RECALL_MS
  | github _ => GITHUB_RECALL_MS

/-- An event at its position in a source's stream. -/
structure HostEventEnvelope where
  sourceId : String
  sourceEpoch : String
  sourceSequence : Nat
  event : HostEventPayload
  deriving DecidableEq

/-- An envelope whose event is a CI attempt. -/
structure CiHostEventEnvelope where
  sourceId : String
  sourceEpoch : String
  sourceSequence : Nat
  event : CiAttemptTerminalEvent
  deriving DecidableEq

def CiHostEventEnvelope.envelope (snapshot : CiHostEventEnvelope) : HostEventEnvelope :=
  { sourceId := snapshot.sourceId
    sourceEpoch := snapshot.sourceEpoch
    sourceSequence := snapshot.sourceSequence
    event := .ci snapshot.event }

/-- The CI attempt an envelope carries, if it carries one (`isCiEnvelope`). -/
def HostEventEnvelope.ciEvent? (envelope : HostEventEnvelope) : Option CiAttemptTerminalEvent :=
  match envelope.event with
  | .ci event => some event
  | .github _ => none

structure HostEventSourceRegistration where
  sourceId : String
  sourceEpoch : String
  scopeVersion : Nat
  subjects : List CiSubject
  rootSubjects : List CiSubject
  startingSequence : Nat
  storeIdentity : Option String
  deriving DecidableEq

structure HostEventCatchUp where
  sourceId : String
  sourceEpoch : String
  scopeVersion : Nat
  generation : Nat
  deriving DecidableEq

inductive CiObservationStatus where
  | queued | inProgress | completed
  deriving DecidableEq

structure HostEventSealObservation where
  subject : CiSubject
  runId : Nat
  runNumber : Nat
  runAttempt : Nat
  status : CiObservationStatus
  conclusion : Option CiTerminalConclusion
  eventId : Option String
  sourceSequence : Option Nat
  deriving DecidableEq

/-- The retained part of a seal. -/
structure HostEventSealedFrontier extends HostEventCatchUp where
  throughSequence : Nat
  observations : List HostEventSealObservation
  deriving DecidableEq

structure HostEventCatchUpSeal extends HostEventSealedFrontier where
  snapshots : Option (List CiHostEventEnvelope)

def hostEventSealedFrontier (published : HostEventCatchUpSeal) : HostEventSealedFrontier :=
  published.toHostEventSealedFrontier

structure HostEventReplayHorizon where
  sourceId : String
  sourceEpoch : String
  throughSequence : Nat

inductive HostEventSourceEndReason where
  | journalReplaced
  deriving DecidableEq

/-- A source no later registration may extend. -/
structure HostEventSourceEnd where
  sourceId : String
  sourceEpoch : String
  reason : HostEventSourceEndReason

/-- Why a consumer's replay entitlement ended. -/
inductive HostEventReplayGapReason where
  | consumerInactive | consumerExpired | consumerEvicted
  deriving DecidableEq

/-- Source-attested unavailable history. -/
structure HostEventReplayGap extends HostEventCatchUp where
  afterSequence : Nat
  throughSequence : Nat
  reason : HostEventReplayGapReason
  deriving DecidableEq

inductive SubscriptionWake where
  | never | resumeSameTask
  deriving DecidableEq

structure HostEventSubscriptionInput where
  threadKey : String
  subject : CiSubject
  wake : SubscriptionWake
  deriving DecidableEq

/-- Captured authority of a live worker. -/
structure HostEventWorkerScope where
  agentId : String
  attemptId : String
  leaseId : String
  fencingToken : Nat

/-- The started execution that may receive an event; the retained context claim is its JSON text. -/
structure HostEventExecutionIdentity where
  taskId : String
  attemptId : String
  agentId : String
  leaseId : String
  fencingToken : Nat
  sessionId : String
  sessionFile : String
  contextClaim : Option String
  deriving DecidableEq

structure HostEventDeliveryBinding where
  deliveryId : String
  eventId : String
  payloadDigest : String
  subscriptionId : String
  subscriptionRevision : Nat
  generation : Nat
  sourceGeneration : Nat
  scopeVersion : Nat
  sourceSealDigest : String
  messageId : String
  contentDigest : String
  bindingDigest : String
  execution : HostEventExecutionIdentity
  deriving DecidableEq

/-- Physical proof of consumption. -/
structure HostEventTranscriptReceipt where
  sessionId : String
  sessionFile : String
  entryId : String
  taskId : String
  attemptId : String
  messageId : String
  contentDigest : String
  bindingDigest : String
  deriving DecidableEq

/-- An inclusive run of source positions. -/
structure HostEventSequenceRange where
  fromSequence : Nat
  through : Nat
  deriving DecidableEq

def hostEventSequenceUnaccepted (ranges : List HostEventSequenceRange) (sequence : Nat) : Bool :=
  ranges.any fun range => range.fromSequence ≤ sequence && sequence ≤ range.through

/-- Coalesce `first` with the ranges after it while more than `bound` ranges remain. -/
def coalesceFrom (bound : Nat) (first : HostEventSequenceRange) :
    List HostEventSequenceRange → List HostEventSequenceRange
  | [] => [first]
  | second :: rest =>
      if bound < rest.length + 2 then
        coalesceFrom bound { fromSequence := first.fromSequence, through := second.through } rest
      else first :: second :: rest

/-- Past `bound` the two lowest ranges coalesce. -/
def coalesceLowestRanges (bound : Nat) :
    List HostEventSequenceRange → List HostEventSequenceRange
  | [] => []
  | first :: rest => coalesceFrom bound first rest

/-- Append one range to the merged ranges, joining it to the last one where they touch. -/
def mergeRange (merged : List HostEventSequenceRange) (range : HostEventSequenceRange) :
    List HostEventSequenceRange :=
  match merged.getLast? with
  | some last =>
      if range.fromSequence ≤ last.through + 1 then
        merged.dropLast ++
          [{ fromSequence := last.fromSequence, through := max last.through range.through }]
      else merged ++ [range]
  | none => merged ++ [range]

/-- `[...ranges, added].sort((left, right) => left.from - right.from)`, a stable sort. -/
def sortRanges (ranges : List HostEventSequenceRange) : List HostEventSequenceRange :=
  ranges.mergeSort fun left right => left.fromSequence ≤ right.fromSequence

def mergeSequenceRanges (ranges : List HostEventSequenceRange) (added : HostEventSequenceRange)
    (bound : Nat) : List HostEventSequenceRange :=
  coalesceLowestRanges bound ((sortRanges (ranges ++ [added])).foldl mergeRange [])

/-- Adds a replay gap's positions. -/
def hostEventUnacceptedWith (ranges : List HostEventSequenceRange)
    (added : HostEventSequenceRange) : List HostEventSequenceRange :=
  mergeSequenceRanges ranges added MAX_HOST_EVENT_UNACCEPTED_RANGES

/-- What is left of one range after removing a position. -/
def splitRange (sequence : Nat) (range : HostEventSequenceRange) : List HostEventSequenceRange :=
  if sequence < range.fromSequence ∨ range.through < sequence then [range]
  else
    (if range.fromSequence < sequence then
        [{ fromSequence := range.fromSequence, through := sequence - 1 }] else []) ++
      (if sequence < range.through then
        [{ fromSequence := sequence + 1, through := range.through }] else [])

/-- Removes one position whose snapshot occurrence was just accepted. -/
def hostEventUnacceptedWithout (ranges : List HostEventSequenceRange) (sequence : Nat) :
    List HostEventSequenceRange :=
  coalesceLowestRanges MAX_HOST_EVENT_UNACCEPTED_RANGES (ranges.flatMap (splitRange sequence))

end PiAdaptative.HostEvents
