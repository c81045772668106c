import PiAdaptative.HostEvents.Contract

/-!
# Host event parsers

The strict parsers of host event payloads.  A value read from a property that may be missing is an
optional JSON value; every refusal carries the stable code and text of the source.
-/

namespace PiAdaptative.HostEvents

open TaskRuntime

/-- A plain object that holds no field outside the list. -/
def hostEventRecord (value : Option Json) (fields : List String) (label : String) :
    Outcome Json :=
  match value with
  | some (.obj entries) => do
      throwHostIf ((entries.map Prod.fst).any fun name => !fields.contains name) "invalid"
        s!"{label} contains an unknown field."
      return .obj entries
  | _ => .error (.hostEvent "invalid" s!"{label} must be an object.")

/-- Whether a text holds the NUL character. -/
def hasNul (text : String) : Bool := text.toList.any fun unit => unit.toNat == 0

def hostEventString (value : Option Json) (label : String)
    (maxLength : Nat := MAX_ORCHESTRATION_IDENTIFIER_LENGTH) : Outcome String :=
  match value with
  | some (.str text) => do
      throwHostIf (text = "" ∨ maxLength < utf16Length text ∨ trim text ≠ text ∨ hasNul text)
        "invalid" s!"{label} must be a bounded canonical string."
      return text
  | _ => .error (.hostEvent "invalid" s!"{label} must be a bounded canonical string.")

/-- Own property names of `Object.prototype`. -/
def objectPrototypeNames : List String :=
  ["constructor", "__defineGetter__", "__defineSetter__", "hasOwnProperty", "__lookupGetter__",
    "__lookupSetter__", "isPrototypeOf", "propertyIsEnumerable", "toString", "valueOf",
    "__proto__", "toLocaleString"]

/-- A source identity that cannot collide with record storage. -/
def sourceIdentifier (value : Option Json) : Outcome String := do
  let id ← hostEventString value "sourceId"
  throwHostIf (id ∈ objectPrototypeNames) "invalid"
    "Source identity conflicts with record storage."
  return id

/-- A safe integer that is at least `minimum`. -/
def hostEventInteger (value : Option Json) (label : String) (minimum : Nat := 1) :
    Outcome Nat :=
  match value with
  | some (.num number) => do
      throwHostIf (¬(isSafeInteger number = true ∧ (minimum : Int) ≤ number.num)) "invalid"
        s!"{label} must be a safe integer >= {minimum}."
      return number.num.toNat
  | _ => .error (.hostEvent "invalid" s!"{label} must be a safe integer >= {minimum}.")

/-- A bounded array, parsed entry by entry. -/
def hostEventArray {entry : Type} (value : Option Json) (maximum : Nat)
    (parse : Option Json → Outcome entry) (label : String) : Outcome (List entry) :=
  match value with
  | some (.arr elements) => do
      throwHostIf (maximum < elements.length) "invalid" s!"{label} exceeds its collection bound."
      mapOutcome (fun element => parse (some element)) elements
  | _ => .error (.hostEvent "invalid" s!"{label} exceeds its collection bound.")

def hostEventDigest (value : Option Json) (label : String) : Outcome String := do
  let digest ← hostEventString value label 64
  throwHostIf (¬(digest.toList.length = 64 ∧ digest.toList.all isLowerHex = true)) "invalid"
    s!"{label} must be SHA-256."
  return digest

/-- `hostEventHash`: the digest of a domain, NUL and the serialised value. -/
def hostEventHash (platform : Platform) (domain : String) (value : Json) : String :=
  platform.sha256 (domain ++ String.singleton (Char.ofNat 0) ++ platform.stringify value)

def hostEventDate (platform : Platform) (value : Option Json) (label : String) :
    Outcome String := do
  let date ← hostEventString value label 32
  throwHostIf (platform.isCanonicalDate date = false) "invalid"
    s!"{label} must be canonical ISO time."
  return date

/-- Whether `inner` occurs in `text`. -/
def hasInfix (inner : List Char) : List Char → Bool
  | [] => inner.isEmpty
  | unit :: units => inner.isPrefixOf (unit :: units) || hasInfix inner units

/-- Lower-case letters and digits. -/
def isHostEdge (unit : Char) : Bool := unit.isLower || unit.isDigit

def ciHost (value : Option Json) : Outcome String := do
  let host ← hostEventString value "CI host" 253
  let units := host.toList
  throwHostIf
    (¬(units.all (fun unit => isHostEdge unit || ['.', '-'].contains unit) = true ∧
        units.head?.any isHostEdge = true ∧ units.getLast?.any isHostEdge = true) ∨
      hasInfix ['.', '.'] units = true)
    "invalid" "CI host must be a lowercase hostname."
  return host

/-- A revision digest of 40 or 64 hexadecimal digits. -/
def ciSha (value : Option Json) : Outcome String := do
  let sha ← hostEventString value "CI head SHA" 64
  throwHostIf
    (¬((sha.toList.length = 40 ∨ sha.toList.length = 64) ∧ sha.toList.all isLowerHex = true))
    "invalid" "CI head SHA is invalid."
  return sha

/-- The member of an enumeration that a JSON text names. -/
def jsonMember? {kind : Type} (all : List kind) (text : kind → String) (value : Option Json) :
    Option kind :=
  match value with
  | some (.str name) => member? all text name
  | _ => none

/-- Whether a value is exactly this text. -/
def isText (value : Option Json) (text : String) : Bool :=
  match value with
  | some (.str name) => name == text
  | _ => false

def ciConclusion (value : Option Json) : Outcome CiTerminalConclusion :=
  orThrowHost (jsonMember? CiTerminalConclusion.all CiTerminalConclusion.text value) "invalid"
    "Unknown CI conclusion."

def parseCiSubject (value : Option Json) : Outcome CiSubject := do
  let entry ← hostEventRecord value ["host", "repositoryId", "workflowId", "headSha"] "CI subject"
  let host ← ciHost (entry.field "host")
  let repositoryId ← hostEventInteger (entry.field "repositoryId") "repositoryId"
  let workflowId ← hostEventInteger (entry.field "workflowId") "workflowId"
  let headSha ← ciSha (entry.field "headSha")
  return { host, repositoryId, workflowId, headSha }

def jsonNat (value : Nat) : Json := .num value

def ciSubjectKey (platform : Platform) (subject : CiSubject) : String :=
  hostEventHash platform "pi-ci-subject-v1"
    (.arr [.str subject.host, jsonNat subject.repositoryId, jsonNat subject.workflowId,
      .str subject.headSha])

def ciThreadKey (platform : Platform) (subject : CiSubject) : String :=
  "ci-thread-" ++ hostEventHash platform "pi-ci-thread-v1"
    (.arr [.str subject.host, jsonNat subject.repositoryId, jsonNat subject.workflowId])

def ciEventSubject (event : CiAttemptTerminalEvent) : CiSubject :=
  { host := event.identity.host
    repositoryId := event.identity.repositoryId
    workflowId := event.identity.workflowId
    headSha := event.headSha }

def parseCiAttemptIdentity (value : Option Json) : Outcome CiAttemptIdentity := do
  let entry ← hostEventRecord value
    ["provider", "host", "repositoryId", "workflowId", "runId", "runAttempt", "runNumber"]
    "CI attempt identity"
  throwHostIf (isText (entry.field "provider") "github-actions" = false) "invalid"
    "Unknown CI provider."
  let host ← ciHost (entry.field "host")
  let repositoryId ← hostEventInteger (entry.field "repositoryId") "repositoryId"
  let workflowId ← hostEventInteger (entry.field "workflowId") "workflowId"
  let runId ← hostEventInteger (entry.field "runId") "runId"
  let runAttempt ← hostEventInteger (entry.field "runAttempt") "runAttempt"
  let runNumber ← hostEventInteger (entry.field "runNumber") "runNumber"
  return { host, repositoryId, workflowId, runId, runAttempt, runNumber }

def ciAttemptEventId (platform : Platform) (identity : CiAttemptIdentity) : String :=
  "ci-" ++ hostEventHash platform "pi-ci-attempt-v1"
    (.arr [.str identity.host, jsonNat identity.repositoryId, jsonNat identity.workflowId,
      jsonNat identity.runId, jsonNat identity.runAttempt])

/-- The serialised form of an attempt identity. -/
def ciIdentityJson (identity : CiAttemptIdentity) : Json :=
  .obj [("provider", .str "github-actions"), ("host", .str identity.host),
    ("repositoryId", jsonNat identity.repositoryId), ("workflowId", jsonNat identity.workflowId),
    ("runId", jsonNat identity.runId), ("runAttempt", jsonNat identity.runAttempt),
    ("runNumber", jsonNat identity.runNumber)]

/-- The content of a terminal attempt that its payload digest covers. -/
def ciEventContent (event : CiAttemptTerminalEvent) : List (String × Json) :=
  [("version", jsonNat 1), ("kind", .str "ci-attempt-terminal"), ("eventId", .str event.eventId),
    ("identity", ciIdentityJson event.identity), ("headSha", .str event.headSha),
    ("conclusion", .str event.conclusion.text), ("workflowPath", .str event.workflowPath),
    ("observedAt", .str event.observedAt), ("runUrl", .str event.runUrl)]

/-- Whether a URL is an `https` page of a host, without credentials. -/
def isPageOf (url : UrlParts) (host : String) : Bool :=
  url.protocol == "https:" && url.hostname == host && url.username == "" && url.password == ""

/-- `new URL(text)`. -/
def parseUrl (platform : Platform) (text : String) : Outcome UrlParts :=
  match platform.parseUrl text with
  | some url => .ok url
  | none => .error (.plain "Invalid URL")

/-- Whether a value is the format version 1. -/
def isVersion (value : Option Json) : Bool :=
  match value with
  | some (.num number) => number == 1
  | _ => false

/-- A terminal CI attempt whose identity and digest match its content. -/
def parseCiAttemptTerminalEvent (platform : Platform) (value : Option Json) :
    Outcome CiAttemptTerminalEvent := do
  let entry ← hostEventRecord value
    ["version", "kind", "eventId", "identity", "headSha", "conclusion", "workflowPath",
      "observedAt", "runUrl", "payloadDigest"] "CI terminal event"
  throwHostIf
    (isVersion (entry.field "version") = false ∨
      isText (entry.field "kind") "ci-attempt-terminal" = false)
    "invalid" "Unknown host event format."
  let identity ← parseCiAttemptIdentity (entry.field "identity")
  let headSha ← ciSha (entry.field "headSha")
  let conclusion ← ciConclusion (entry.field "conclusion")
  let workflowPath ← hostEventString (entry.field "workflowPath") "workflowPath" 2048
  let observedAt ← hostEventDate platform (entry.field "observedAt") "observedAt"
  let runUrl ← hostEventString (entry.field "runUrl") "runUrl" 2048
  let url ← parseUrl platform runUrl
  throwHostIf (isPageOf url identity.host = false) "invalid"
    "CI run URL does not belong to its host."
  let content : CiAttemptTerminalEvent :=
    { eventId := ciAttemptEventId platform identity
      identity, headSha, conclusion, workflowPath, observedAt, runUrl
      payloadDigest := "" }
  let event : CiAttemptTerminalEvent :=
    { content with
      payloadDigest :=
        hostEventHash platform "pi-ci-terminal-payload-v1" (.obj (ciEventContent content)) }
  throwHostIf
    (isText (entry.field "eventId") event.eventId = false ∨
      isText (entry.field "payloadDigest") event.payloadDigest = false)
    "identity_conflict" "CI event identity or payload digest differs from canonical content."
  return event

/-- A bounded login, possibly of an app. -/
def githubLogin (value : Option Json) : Outcome String := do
  let login ← hostEventString value "GitHub login" (MAX_GITHUB_LOGIN_LENGTH + 5)
  let units := login.toList
  let suffix := "[bot]".toList
  let base := if suffix.isSuffixOf units then units.dropLast.dropLast.dropLast.dropLast.dropLast
    else units
  throwHostIf
    (MAX_GITHUB_LOGIN_LENGTH < base.length ∨
      ¬(base.all (fun unit => unit.isAlphanum || unit == '-') = true ∧
        base.head?.any Char.isAlphanum = true ∧ base.getLast?.any Char.isAlphanum = true))
    "invalid" "GitHub login is invalid."
  return login

def githubBranchName (value : Option Json) : Outcome String := do
  let branch ← hostEventString value "GitHub branch" 255
  let units := branch.toList
  throwHostIf
    (¬(units.all (fun unit => 33 ≤ unit.toNat && unit.toNat ≤ 126) = true) ∨
      units.any (fun unit => ['~', '^', ':', '?', '*', '[', Char.ofNat 92].contains unit) = true ∨
      hasInfix ['.', '.'] units = true ∨ hasInfix ['@', Char.ofNat 123] units = true ∨
      hasInfix ['/', '/'] units = true ∨ units.head? = some '/' ∨ units.getLast? = some '/' ∨
      ".lock".toList.isSuffixOf units = true ∨ units.head? = some '-' ∨
      units.getLast? = some '.')
    "invalid" "GitHub branch name is invalid."
  return branch

/-- A retained comment or review body. -/
def parseGithubEventBody (value : Option Json) : Outcome GithubEventBody := do
  let entry ← hostEventRecord value ["text", "truncated", "bytes"] "GitHub event body"
  match entry.field "text", entry.field "truncated" with
  | some (.str text), some (.bool truncated) => do
      throwHostIf (hasNul text = true ∨ MAX_GITHUB_EVENT_BODY_BYTES < utf8Length text) "invalid"
        "GitHub event body is invalid."
      let bytes ← hostEventInteger (entry.field "bytes") "body bytes" 0
      let kept := utf8Length text
      throwHostIf (if truncated then bytes ≤ kept else bytes < kept) "invalid"
        "GitHub event body length is inconsistent."
      return { text, truncated, bytes }
  | _, _ => .error (.hostEvent "invalid" "GitHub event body is invalid.")

def githubThreadEventId (platform : Platform) (host : String) (repositoryId : Nat)
    (kind : GithubThreadEventKind) (githubId : Nat) : String :=
  "gh-" ++ hostEventHash platform "pi-github-thread-v1"
    (.arr [.str host, jsonNat repositoryId, .str kind.text, jsonNat githubId])

/-- The content of an occurrence that its payload digest covers. -/
def githubEventContent (event : GithubThreadEvent) : List (String × Json) :=
  [("version", jsonNat 1), ("kind", .str event.kind.text), ("eventId", .str event.eventId),
    ("githubId", jsonNat event.githubId),
    ("repository",
      .obj [("host", .str event.host), ("repositoryId", jsonNat event.repositoryId)]),
    ("thread",
      .obj ([("number", jsonNat event.number), ("pullRequest", .bool event.pullRequest)] ++
        Json.optionalField "branch" (event.branch.map .str) ++
        (if event.ownedByViewer then [("ownedByViewer", .bool true)] else []))),
    ("author", .str event.author), ("occurredAt", .str event.occurredAt),
    ("url", .str event.url)] ++
    Json.optionalField "body" (event.body.map fun body =>
      .obj [("text", .str body.text), ("truncated", .bool body.truncated),
        ("bytes", jsonNat body.bytes)]) ++
    Json.optionalField "state" (event.state.map fun state => .str state.text)

/-- Whether a comment kind always carries a body. -/
def GithubThreadEventKind.commented : GithubThreadEventKind → Bool
  | .pullRequestComment | .reviewComment => true
  | _ => false

/-- A GitHub occurrence whose identity and digest match its content. -/
def parseGithubThreadEvent (platform : Platform) (value : Option Json) :
    Outcome GithubThreadEvent := do
  let entry ← hostEventRecord value
    ["version", "kind", "eventId", "githubId", "repository", "thread", "author", "occurredAt",
      "url", "body", "state", "payloadDigest"] "GitHub thread event"
  throwHostIf (isVersion (entry.field "version") = false) "invalid" "Unknown host event format."
  let repository ← hostEventRecord (entry.field "repository") ["host", "repositoryId"]
    "GitHub repository"
  let thread ← hostEventRecord (entry.field "thread")
    ["number", "pullRequest", "branch", "ownedByViewer"] "GitHub thread"
  let kind ← orThrowHost
    (jsonMember? GithubThreadEventKind.all GithubThreadEventKind.text (entry.field "kind"))
    "invalid" "Unknown GitHub thread event kind."
  let host ← ciHost (repository.field "host")
  let repositoryId ← hostEventInteger (repository.field "repositoryId") "repositoryId"
  let githubId ← hostEventInteger (entry.field "githubId") "githubId"
  let pullRequest ← match thread.field "pullRequest" with
    | some (.bool flag) => .ok flag
    | _ => .error (.hostEvent "invalid" "GitHub thread kind is invalid.")
  throwHostIf ((thread.field "branch").isSome = true ∧ pullRequest = false) "invalid"
    "Only a pull request has a head branch."
  let ownedByViewer ← match thread.field "ownedByViewer" with
    | none => .ok false
    | some (.bool true) =>
        if pullRequest then .ok true
        else .error (.hostEvent "invalid" "Only a pull request is owned by the signed-in login.")
    | some _ =>
        .error (.hostEvent "invalid" "Only a pull request is owned by the signed-in login.")
  let body ← match entry.field "body" with
    | none => .ok none
    | some present => (parseGithubEventBody (some present)).map some
  throwHostIf
    ((kind.commented = true ∧ body = none) ∨
      (kind ≠ .reviewSubmitted ∧ kind.commented = false ∧ body ≠ none) ∨
      ¬(kind = .reviewSubmitted ↔ (entry.field "state").isSome = true) ∨
      (kind ≠ .issueAssigned ∧ pullRequest = false))
    "invalid" "GitHub thread event fields do not fit its kind."
  let state ← match entry.field "state" with
    | none => .ok none
    | some present =>
        (orThrowHost (jsonMember? GithubReviewState.all GithubReviewState.text (some present))
          "invalid" "Unknown GitHub review state.").map some
  let number ← hostEventInteger (thread.field "number") "thread number"
  let branch ← match thread.field "branch" with
    | none => .ok none
    | some present => (githubBranchName (some present)).map some
  let author ← githubLogin (entry.field "author")
  let occurredAt ← hostEventDate platform (entry.field "occurredAt") "occurredAt"
  let url ← hostEventString (entry.field "url") "url" 2048
  let parts ← parseUrl platform url
  throwHostIf (isPageOf parts host = false) "invalid"
    "GitHub thread URL does not belong to its host."
  let content : GithubThreadEvent :=
    { kind, githubId, host, repositoryId, number, pullRequest, branch, ownedByViewer, author,
      occurredAt, url, body, state
      eventId := githubThreadEventId platform host repositoryId kind githubId
      payloadDigest := "" }
  let event : GithubThreadEvent :=
    { content with
      payloadDigest :=
        hostEventHash platform "pi-github-thread-payload-v1" (.obj (githubEventContent content)) }
  throwHostIf
    (isText (entry.field "eventId") event.eventId = false ∨
      isText (entry.field "payloadDigest") event.payloadDigest = false)
    "identity_conflict" "GitHub event identity or payload digest differs from canonical content."
  return event

/-- The event of an envelope, by its declared kind. -/
def parseHostEventPayload (platform : Platform) (value : Option Json) :
    Outcome HostEventPayload :=
  if isText (value.bind fun event => event.field "kind") "ci-attempt-terminal" then
    (parseCiAttemptTerminalEvent platform value).map .ci
  else (parseGithubThreadEvent platform value).map .github

def parseHostEventEnvelope (platform : Platform) (value : Option Json) :
    Outcome HostEventEnvelope := do
  let entry ← hostEventRecord value ["sourceId", "sourceEpoch", "sourceSequence", "event"]
    "host event envelope"
  let sourceId ← sourceIdentifier (entry.field "sourceId")
  let sourceEpoch ← hostEventString (entry.field "sourceEpoch") "sourceEpoch"
  let sourceSequence ← hostEventInteger (entry.field "sourceSequence") "sourceSequence"
  let event ← parseHostEventPayload platform (entry.field "event")
  return { sourceId, sourceEpoch, sourceSequence, event }

/-- A seal snapshot always carries a CI attempt. -/
def parseCiHostEventEnvelope (platform : Platform) (value : Option Json) :
    Outcome CiHostEventEnvelope := do
  let envelope ← parseHostEventEnvelope platform value
  let event ← orThrowHost envelope.ciEvent? "invalid" "Only a CI attempt is a seal snapshot."
  return { sourceId := envelope.sourceId, sourceEpoch := envelope.sourceEpoch
           sourceSequence := envelope.sourceSequence, event }

def parseHostEventSourceRegistration (platform : Platform) (value : Option Json) :
    Outcome HostEventSourceRegistration := do
  let entry ← hostEventRecord value
    ["sourceId", "sourceEpoch", "scopeVersion", "subjects", "rootSubjects", "startingSequence",
      "storeIdentity"] "host event source registration"
  let subjects ← hostEventArray (entry.field "subjects") MAX_HOST_EVENT_SUBJECTS parseCiSubject
    "source subjects"
  throwHostIf (subjects = [] ∨ ¬(subjects.map (ciSubjectKey platform)).Nodup) "invalid"
    "Source subjects must be nonempty and unique."
  let rootSubjects ← hostEventArray (entry.field "rootSubjects") MAX_HOST_EVENT_SUBJECTS
    parseCiSubject "root subjects"
  throwHostIf
    (¬(rootSubjects.map (ciSubjectKey platform)).Nodup ∨
      ¬(rootSubjects.map (ciSubjectKey platform) ⊆ subjects.map (ciSubjectKey platform)))
    "invalid" "Root subjects must be a unique subset of the registered scope."
  let sourceId ← sourceIdentifier (entry.field "sourceId")
  let sourceEpoch ← hostEventString (entry.field "sourceEpoch") "sourceEpoch"
  let scopeVersion ← hostEventInteger (entry.field "scopeVersion") "scopeVersion"
  let startingSequence ← hostEventInteger (entry.field "startingSequence") "startingSequence"
  let storeIdentity ← match entry.field "storeIdentity" with
    | none => .ok none
    | some present => (hostEventDigest (some present) "storeIdentity").map some
  return { sourceId, sourceEpoch, scopeVersion, subjects, rootSubjects, startingSequence,
           storeIdentity }

def parseHostEventSourceEnd (value : Option Json) : Outcome HostEventSourceEnd := do
  let entry ← hostEventRecord value ["sourceId", "sourceEpoch", "reason"] "host event source end"
  throwHostIf (isText (entry.field "reason") "journal_replaced" = false) "invalid"
    "Unknown host event source end reason."
  let sourceId ← sourceIdentifier (entry.field "sourceId")
  let sourceEpoch ← hostEventString (entry.field "sourceEpoch") "sourceEpoch"
  return { sourceId, sourceEpoch, reason := .journalReplaced }

/-- Registering `next` ends `prior`. -/
def hostEventSourceReplaces (next prior : HostEventSourceRegistration) : Bool :=
  match next.storeIdentity with
  | none => false
  | some identity =>
      if prior.sourceId = next.sourceId then false
      else
        match prior.storeIdentity with
        | some priorIdentity => priorIdentity == identity
        | none =>
            prior.subjects.any fun subject =>
              next.subjects.any fun other =>
                other.host == subject.host && other.repositoryId == subject.repositoryId

def parseHostEventCatchUp (entry : Json) : Outcome HostEventCatchUp := do
  let sourceId ← sourceIdentifier (entry.field "sourceId")
  let sourceEpoch ← hostEventString (entry.field "sourceEpoch") "sourceEpoch"
  let scopeVersion ← hostEventInteger (entry.field "scopeVersion") "scopeVersion"
  let generation ← hostEventInteger (entry.field "generation") "generation"
  return { sourceId, sourceEpoch, scopeVersion, generation }

def parseHostEventCatchUpPayload (value : Option Json) : Outcome HostEventCatchUp := do
  let entry ← hostEventRecord value ["sourceId", "sourceEpoch", "scopeVersion", "generation"]
    "host event catch-up"
  parseHostEventCatchUp entry

def ciObservationStatus? (value : Option Json) : Option CiObservationStatus :=
  match value with
  | some (.str "queued") => some .queued
  | some (.str "in_progress") => some .inProgress
  | some (.str "completed") => some .completed
  | _ => none

/-- A completed sealed observation names its terminal occurrence; any other names none. -/
def parseHostEventSealObservation (value : Option Json) : Outcome HostEventSealObservation := do
  let entry ← hostEventRecord value
    ["subject", "runId", "runNumber", "runAttempt", "status", "conclusion", "eventId",
      "sourceSequence"] "sealed CI observation"
  let status ← orThrowHost (ciObservationStatus? (entry.field "status")) "invalid"
    "Unknown CI observation status."
  throwHostIf
    (¬(status = .completed ↔
        (entry.field "conclusion").isSome = true ∧ (entry.field "eventId").isSome = true) ∨
      (status ≠ .completed ∧
        ((entry.field "conclusion").isSome = true ∨ (entry.field "eventId").isSome = true)))
    "invalid" "CI observation terminal fields are inconsistent."
  let subject ← parseCiSubject (entry.field "subject")
  let runId ← hostEventInteger (entry.field "runId") "runId"
  let runNumber ← hostEventInteger (entry.field "runNumber") "runNumber"
  let runAttempt ← hostEventInteger (entry.field "runAttempt") "runAttempt"
  if status = .completed then
    let conclusion ← ciConclusion (entry.field "conclusion")
    let eventId ← hostEventString (entry.field "eventId") "eventId"
    throwHostIf ((entry.field "sourceSequence").isNone = true) "invalid"
      "A sealed observation names a source position exactly when it is terminal."
    let sourceSequence ← hostEventInteger (entry.field "sourceSequence") "sourceSequence"
    return { subject, runId, runNumber, runAttempt, status, conclusion := some conclusion
             eventId := some eventId, sourceSequence := some sourceSequence }
  else
    throwHostIf ((entry.field "sourceSequence").isSome = true) "invalid"
      "A sealed observation names a source position exactly when it is terminal."
    return { subject, runId, runNumber, runAttempt, status, conclusion := none, eventId := none
             sourceSequence := none }

def parseHostEventCatchUpSeal (platform : Platform) (value : Option Json) :
    Outcome HostEventCatchUpSeal := do
  let entry ← hostEventRecord value
    ["sourceId", "sourceEpoch", "scopeVersion", "generation", "throughSequence", "observations",
      "snapshots"] "host event seal"
  let identity ← parseHostEventCatchUp entry
  let observations ← hostEventArray (entry.field "observations") MAX_HOST_EVENT_SUBJECTS
    parseHostEventSealObservation "seal observations"
  throwHostIf
    (¬(observations.map fun observation => ciSubjectKey platform observation.subject).Nodup)
    "invalid" "Seal observations must have unique subjects."
  let snapshots ← match entry.field "snapshots" with
    | none => .ok none
    | some present =>
        (hostEventArray (some present) MAX_HOST_EVENT_SUBJECTS
          (parseCiHostEventEnvelope platform) "seal snapshots").map some
  throwHostIf
    (¬((snapshots.getD []).map fun snapshot => snapshot.event.eventId).Nodup)
    "invalid" "Seal snapshot identities must be unique."
  let throughSequence ← hostEventInteger (entry.field "throughSequence") "throughSequence" 0
  return { toHostEventCatchUp := identity, throughSequence, observations, snapshots }

def parseHostEventReplayHorizon (value : Option Json) : Outcome HostEventReplayHorizon := do
  let entry ← hostEventRecord value ["sourceId", "sourceEpoch", "throughSequence"]
    "host event replay horizon"
  let sourceId ← sourceIdentifier (entry.field "sourceId")
  let sourceEpoch ← hostEventString (entry.field "sourceEpoch") "sourceEpoch"
  let throughSequence ← hostEventInteger (entry.field "throughSequence") "throughSequence" 0
  return { sourceId, sourceEpoch, throughSequence }

def replayGapReason? (value : Option Json) : Option HostEventReplayGapReason :=
  match value with
  | some (.str "consumer_inactive") => some .consumerInactive
  | some (.str "consumer_expired") => some .consumerExpired
  | some (.str "consumer_evicted") => some .consumerEvicted
  | _ => none

/-- A replay gap that advances to a bounded source position. -/
def parseHostEventReplayGap (value : Option Json) : Outcome HostEventReplayGap := do
  let entry ← hostEventRecord value
    ["sourceId", "sourceEpoch", "scopeVersion", "generation", "afterSequence", "throughSequence",
      "reason"] "host event replay gap"
  let reason ← orThrowHost (replayGapReason? (entry.field "reason")) "invalid"
    "Unknown replay gap reason."
  let afterSequence ← hostEventInteger (entry.field "afterSequence") "afterSequence" 0
  let throughSequence ← hostEventInteger (entry.field "throughSequence") "throughSequence"
  throwHostIf (throughSequence ≤ afterSequence ∨ throughSequence = 9007199254740991) "invalid"
    "Replay gap must advance to a bounded source position."
  let identity ← parseHostEventCatchUp entry
  return { toHostEventCatchUp := identity, afterSequence, throughSequence, reason }

def subscriptionWake? (value : Option Json) : Option SubscriptionWake :=
  match value with
  | some (.str "never") => some .never
  | some (.str "resume_same_task") => some .resumeSameTask
  | _ => none

/-- A declared subscription whose thread is its subject's workflow. -/
def parseHostEventSubscriptionInput (platform : Platform) (value : Option Json) :
    Outcome HostEventSubscriptionInput := do
  let entry ← hostEventRecord value ["threadKey", "subject", "wake"] "host event subscription"
  let wake ← orThrowHost (subscriptionWake? (entry.field "wake")) "invalid"
    "Unknown host event wake policy."
  let subject ← parseCiSubject (entry.field "subject")
  let threadKey ← hostEventString (entry.field "threadKey") "threadKey"
  throwHostIf (threadKey ≠ ciThreadKey platform subject) "invalid"
    "Subscription thread does not identify its CI workflow."
  return { threadKey, subject, wake }

/-- Identity of a task's subscription to a thread. -/
def hostEventSubscriptionId (platform : Platform) (taskId threadKey : String) : String :=
  "hes-" ++ hostEventHash platform "pi-host-event-subscription-v1"
    (.arr [.str taskId, .str threadKey])

/-- A field that is a bounded canonical identifier. -/
def identifier? (value : Option Json) : Option String :=
  match value with
  | some (.str text) =>
      if text ≠ "" ∧ trim text = text ∧ hasNul text = false ∧
          utf16Length text ≤ MAX_ORCHESTRATION_IDENTIFIER_LENGTH then some text
      else none
  | _ => none

/-- A field that is a positive safe integer. -/
def positiveInteger? (value : Option Json) : Option Nat :=
  match value with
  | some (.num number) =>
      if isSafeInteger number = true ∧ 0 < number.num then some number.num.toNat else none
  | _ => none

/-- A field that is a SHA-256 digest. -/
def digest? (value : Option Json) : Option String :=
  match value with
  | some (.str text) =>
      if text.toList.length = 64 ∧ text.toList.all isLowerHex = true then some text else none
  | _ => none

/-- A field that is a bounded session file path. -/
def sessionFile? (value : Option Json) : Option String :=
  match value with
  | some (.str text) =>
      if trim text ≠ "" ∧ utf16Length text ≤ MAX_WORKER_AUTHORITY_PATH_LENGTH ∧
          hasNul text = false then some text
      else none
  | _ => none

/-- Whether a value is an object with no field outside the list. -/
def hasOnlyFields (value : Json) (fields : List String) : Bool :=
  match value with
  | .obj entries => entries.all fun entry => fields.contains entry.1
  | _ => false

def MAX_STAMP_BYTES : Nat := 1024 * 1024

/-- The serialised form of an execution; the claim's own form is given. -/
def executionJson (execution : HostEventExecutionIdentity) (claim : Option Json) : Json :=
  .obj ([("taskId", .str execution.taskId), ("attemptId", .str execution.attemptId),
    ("agentId", .str execution.agentId), ("leaseId", .str execution.leaseId),
    ("fencingToken", jsonNat execution.fencingToken), ("sessionId", .str execution.sessionId),
    ("sessionFile", .str execution.sessionFile)] ++ Json.optionalField "contextClaim" claim)

/-- An execution identity with its normalised context claim. -/
def parseHostEventExecutionIdentity (env : Decoders) (value : Json) :
    Option (HostEventExecutionIdentity × Option Json) := do
  guard (hasOnlyFields value
    ["taskId", "attemptId", "agentId", "leaseId", "fencingToken", "sessionId", "sessionFile",
      "contextClaim"])
  let taskId ← identifier? (value.field "taskId")
  let attemptId ← identifier? (value.field "attemptId")
  let agentId ← identifier? (value.field "agentId")
  let leaseId ← identifier? (value.field "leaseId")
  let sessionId ← identifier? (value.field "sessionId")
  let fencingToken ← positiveInteger? (value.field "fencingToken")
  let sessionFile ← sessionFile? (value.field "sessionFile")
  let claim ← match value.field "contextClaim" with
    | none => some none
    | some present => (env.normalizeContextClaim present).map some
  let execution : HostEventExecutionIdentity :=
    { taskId, attemptId, agentId, leaseId, fencingToken, sessionId, sessionFile
      contextClaim := claim.map env.stringify }
  guard (utf8Length (env.stringify (executionJson execution claim)) ≤ MAX_STAMP_BYTES)
  return (execution, claim)

/-- The serialised form of a binding without its digest. -/
def bindingBodyJson (binding : HostEventDeliveryBinding) (claim : Option Json) : Json :=
  .obj [("deliveryId", .str binding.deliveryId), ("eventId", .str binding.eventId),
    ("payloadDigest", .str binding.payloadDigest),
    ("subscriptionId", .str binding.subscriptionId),
    ("subscriptionRevision", jsonNat binding.subscriptionRevision),
    ("generation", jsonNat binding.generation),
    ("sourceGeneration", jsonNat binding.sourceGeneration),
    ("scopeVersion", jsonNat binding.scopeVersion),
    ("sourceSealDigest", .str binding.sourceSealDigest),
    ("messageId", .str binding.messageId), ("contentDigest", .str binding.contentDigest),
    ("execution", executionJson binding.execution claim)]

/-- A binding whose digest covers its canonical serialisation (`parseWorkerHostEventRecord`). -/
def parseWorkerHostEventRecord (env : Decoders) (value : Json) :
    Option HostEventDeliveryBinding := do
  guard (hasOnlyFields value
    ["deliveryId", "eventId", "payloadDigest", "subscriptionId", "subscriptionRevision",
      "generation", "sourceGeneration", "scopeVersion", "sourceSealDigest", "messageId",
      "contentDigest", "bindingDigest", "execution"])
  let (execution, claim) ← (value.field "execution").bind (parseHostEventExecutionIdentity env)
  let deliveryId ← identifier? (value.field "deliveryId")
  let eventId ← identifier? (value.field "eventId")
  let subscriptionId ← identifier? (value.field "subscriptionId")
  let messageId ← identifier? (value.field "messageId")
  let subscriptionRevision ← positiveInteger? (value.field "subscriptionRevision")
  let generation ← positiveInteger? (value.field "generation")
  let sourceGeneration ← positiveInteger? (value.field "sourceGeneration")
  let scopeVersion ← positiveInteger? (value.field "scopeVersion")
  let payloadDigest ← digest? (value.field "payloadDigest")
  let sourceSealDigest ← digest? (value.field "sourceSealDigest")
  let contentDigest ← digest? (value.field "contentDigest")
  let bindingDigest ← digest? (value.field "bindingDigest")
  let binding : HostEventDeliveryBinding :=
    { deliveryId, eventId, payloadDigest, subscriptionId, subscriptionRevision, generation,
      sourceGeneration, scopeVersion, sourceSealDigest, messageId, contentDigest, bindingDigest,
      execution }
  let body := env.stringify (bindingBodyJson binding claim)
  guard (utf8Length body ≤ MAX_STAMP_BYTES - 96)
  guard (env.sha256 body = bindingDigest)
  return binding

def parseHostEventDeliveryBinding (env : Decoders) (value : Option Json) :
    Outcome HostEventDeliveryBinding :=
  orThrowHost (value.bind (parseWorkerHostEventRecord env)) "invalid"
    "Host event delivery binding is invalid."

def parseHostEventTranscriptReceipt (value : Option Json) :
    Outcome HostEventTranscriptReceipt := do
  let entry ← hostEventRecord value
    ["sessionId", "sessionFile", "entryId", "taskId", "attemptId", "messageId", "contentDigest",
      "bindingDigest"] "host event transcript receipt"
  let sessionId ← hostEventString (entry.field "sessionId") "sessionId"
  let sessionFile ← hostEventString (entry.field "sessionFile") "sessionFile"
    MAX_WORKER_AUTHORITY_PATH_LENGTH
  let entryId ← hostEventString (entry.field "entryId") "entryId"
  let taskId ← hostEventString (entry.field "taskId") "taskId"
  let attemptId ← hostEventString (entry.field "attemptId") "attemptId"
  let messageId ← hostEventString (entry.field "messageId") "messageId"
  let contentDigest ← hostEventDigest (entry.field "contentDigest") "contentDigest"
  let bindingDigest ← hostEventDigest (entry.field "bindingDigest") "bindingDigest"
  return { sessionId, sessionFile, entryId, taskId, attemptId, messageId, contentDigest,
           bindingDigest }

/-- A receipt names exactly the admitted binding. -/
def assertHostEventReceiptMatchesBinding (receipt : HostEventTranscriptReceipt)
    (binding : HostEventDeliveryBinding) : Outcome Unit :=
  throwHostIf
    (receipt.bindingDigest ≠ binding.bindingDigest ∨
      receipt.contentDigest ≠ binding.contentDigest ∨ receipt.messageId ≠ binding.messageId ∨
      receipt.taskId ≠ binding.execution.taskId ∨
      receipt.attemptId ≠ binding.execution.attemptId ∨
      receipt.sessionId ≠ binding.execution.sessionId ∨
      receipt.sessionFile ≠ binding.execution.sessionFile)
    "identity_conflict" "Transcript receipt differs from admitted binding."

end PiAdaptative.HostEvents
