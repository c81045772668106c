import PiAdaptative.Foundations.JsonBytes
import PiAdaptative.Session.ActiveTask

/-!
# Records of USER memory transactions

A USER memory operation rewrites `USER.md` and files of its archive. Its record states what each
file holds before and after, which effects were attempted and completed, and, once the operation is
over, a receipt. This file models the record, its codec and the classification of the evidence about
the stored files.
-/

namespace PiAdaptative.UserMemory

def MAX_RECORD_BYTES : Nat := 40 * 1024 * 1024

def MAX_FILE_BYTES : Nat := 1024 * 1024

def MAX_FILES : Nat := 1025

def MAX_ERROR_CHARS : Nat := 2048

def USER_STEP : String := "USER.md"

/-- What the transactions of one store work with; the audit seeds are of type `δ`. -/
structure Host (δ : Type) where
  path : String
  userPath : String
  archivePath : String → String
  inArchive : String → Bool
  basename : String → String
  sha256 : String → String
  /-- Whether a text is a date that `Date.parse` reads. -/
  isDate : String → Bool
  seed : δ → Json
  settles : Bool

/-- A planned file, with its contents where it is present. -/
structure StoredFile where
  name : String
  before : Option String
  after : Option String
  beforeDigest : Option String
  afterDigest : Option String
  deriving DecidableEq

/-- What was found of a planned file. -/
inductive EvidenceState where
  | before
  | after
  | unknown
  deriving DecidableEq

/-- Evidence about a planned file. -/
structure MemoryMutationEvidence where
  path : String
  state : EvidenceState
  attempted : Bool
  deriving DecidableEq

inductive ReceiptState where
  | complete
  | none
  | partly
  | unknown
  deriving DecidableEq

def ReceiptState.text : ReceiptState → String
  | complete => "complete"
  | none => "none"
  | partly => "partial"
  | unknown => "unknown"

/-- What the owner of the audit is told. -/
structure UserPreferenceCommitReport where
  persisted : Bool
  settledAt : String
  error : Option String
  outcome : Option ReceiptState
  storageChanged : Option Bool
  deriving DecidableEq

structure Receipt where
  state : ReceiptState
  report : UserPreferenceCommitReport
  evidence : List MemoryMutationEvidence
  storageChanged : Bool
  deriving DecidableEq

/-- The admission seed of the audit. -/
structure UserPreferenceCommitReference (δ : Type) where
  id : String
  data : δ
  deriving DecidableEq

/-- One pending USER operation. -/
structure TransactionRecord (δ : Type) where
  id : String
  receiptAt : String
  user : StoredFile
  files : List StoredFile
  audit : Option (UserPreferenceCommitReference δ)
  attempted : List String
  completed : List String
  receipt : Option Receipt
  deriving DecidableEq

/-- A text or `null`. -/
def textOrNull : Option String → Json
  | some text => .str text
  | none => .null

def StoredFile.toJson (file : StoredFile) : Json :=
  .obj [("name", .str file.name), ("before", textOrNull file.before),
    ("after", textOrNull file.after), ("beforeDigest", textOrNull file.beforeDigest),
    ("afterDigest", textOrNull file.afterDigest)]

def EvidenceState.text : EvidenceState → String
  | before => "before"
  | after => "after"
  | unknown => "unknown"

def MemoryMutationEvidence.toJson (evidence : MemoryMutationEvidence) : Json :=
  .obj [("path", .str evidence.path), ("state", .str evidence.state.text),
    ("attempted", .bool evidence.attempted)]

def UserPreferenceCommitReport.toJson (report : UserPreferenceCommitReport) : Json :=
  .obj ([("persisted", .bool report.persisted), ("settledAt", .str report.settledAt)] ++
    Json.optionalField "error" (report.error.map .str) ++
    Json.optionalField "outcome" (report.outcome.map fun state => .str state.text) ++
    Json.optionalField "storageChanged" (report.storageChanged.map .bool))

def Receipt.toJson (receipt : Receipt) : Json :=
  .obj [("state", .str receipt.state.text), ("report", receipt.report.toJson),
    ("evidence", .arr (receipt.evidence.map (·.toJson))),
    ("storageChanged", .bool receipt.storageChanged)]

variable {δ : Type} (host : Host δ)

def UserPreferenceCommitReference.toJson (reference : UserPreferenceCommitReference δ) : Json :=
  .obj [("id", .str reference.id), ("data", host.seed reference.data)]

def TransactionRecord.toJson (record : TransactionRecord δ) : Json :=
  .obj ([("version", .num 1), ("id", .str record.id), ("receiptAt", .str record.receiptAt),
    ("user", record.user.toJson), ("files", .arr (record.files.map (·.toJson))),
    ("audit", (record.audit.map (·.toJson host)).getD .null),
    ("attempted", .strings record.attempted), ("completed", .strings record.completed)] ++
    Json.optionalField "receipt" (record.receipt.map (·.toJson)))

def TransactionRecord.bytes (record : TransactionRecord δ) : Nat :=
  (record.toJson host).bytes

def digest (value : Option String) : Option String := value.map host.sha256

/-- The names of `isUserArchiveFileName`. -/
def isUserArchiveFileName (name : String) : Bool :=
  name == "index.okf.md" ||
    (let text := name.toList
    let start := "user-preferences-".toList
    let finish := ".okf.md".toList
    start.isPrefixOf text && finish.isSuffixOf text &&
      text.length == start.length + 16 + finish.length &&
      ((text.drop start.length).take 16).all isLowerHex)

/-- Whether a file is one that a record may plan. -/
def validFile (file : StoredFile) : Bool :=
  utf8Length (file.before.getD "") ≤ MAX_FILE_BYTES &&
    utf8Length (file.after.getD "") ≤ MAX_FILE_BYTES &&
    file.beforeDigest == digest host file.before && file.afterDigest == digest host file.after

/-- The planned files with their paths, `USER.md` last. -/
def TransactionRecord.planned (record : TransactionRecord δ) : List (String × StoredFile) :=
  record.files.map (fun file => (host.archivePath file.name, file)) ++
    [(host.userPath, record.user)]

/-- What the evidence read so far says. -/
structure Summary where
  allAfter : Bool
  allBefore : Bool
  unknown : Bool
  storageChanged : Bool

/-- The evidence about one planned file. -/
def summarizeFile (record : TransactionRecord δ) (summary : Summary)
    (entry : (String × StoredFile) × MemoryMutationEvidence) : Except String Summary :=
  let ((path, file), item) := entry
  if item.path ≠ path ∨ item.attempted ≠ record.attempted.contains file.name then
    .error "Error: USER receipt evidence has a different storage identity"
  else if item.state = .unknown then
    .ok { summary with unknown := true, allAfter := false, allBefore := false }
  else if file.before = file.after then
    if item.state ≠ .before then
      .error "Error: USER receipt claims an effect for unchanged storage"
    else .ok summary
  else if item.state = .after then
    if item.attempted = false then
      .error "Error: USER receipt credits an unattempted storage effect"
    else .ok { summary with allBefore := false, storageChanged := true }
  else if record.completed.contains file.name then
    .error "Error: Completed USER effect lacks matching bytes"
  else .ok { summary with allAfter := false }

/-- The terminal classification, from the ordered plan. -/
def summarize (record : TransactionRecord δ) (evidence : List MemoryMutationEvidence) :
    Except String (ReceiptState × Bool) := do
  let files := record.planned host
  if evidence.length ≠ files.length then
    .error "Error: USER receipt omits planned storage evidence"
  else
    let summary ← (files.zip evidence).foldlM (summarizeFile record) {
      allAfter := true
      allBefore := true
      unknown := false
      storageChanged := record.completed ≠ [] }
    let state : ReceiptState :=
      if summary.unknown then .unknown
      else if summary.allAfter then .complete
      else if summary.allBefore && !summary.storageChanged then .none
      else .partly
    .ok (state, summary.storageChanged)

def makeReceipt (record : TransactionRecord δ) (evidence : List MemoryMutationEvidence)
    (error : Option String) : Except String Receipt := do
  let (state, storageChanged) ← summarize host record evidence
  let report : UserPreferenceCommitReport :=
    if state = .complete then {
      persisted := true
      settledAt := record.receiptAt
      error := none
      outcome := none
      storageChanged := none }
    else {
      persisted := false
      settledAt := record.receiptAt
      error := some (
        if state = .none then "USER transaction made no storage changes"
        else Session.clampText (error.getD "Interrupted USER transaction") MAX_ERROR_CHARS)
      outcome := if state = .none then none else some state
      storageChanged := if state = .none then none else some storageChanged }
  .ok { state, report, evidence, storageChanged }

/-- `/^[a-f0-9-]{36}$/`. -/
def isTransactionId (id : String) : Bool :=
  id.length == 36 && id.toList.all fun unit => isLowerHex unit || unit == '-'

/-- `/^audit-[a-f0-9-]{36}$/`. -/
def isAuditId (id : String) : Bool :=
  "audit-".toList.isPrefixOf id.toList &&
    isTransactionId (String.ofList (id.toList.drop "audit-".length))

/-- The names of the files that change. -/
def TransactionRecord.steps (record : TransactionRecord δ) : List String :=
  (if record.user.before ≠ record.user.after then [USER_STEP] else []) ++
    record.files.map (·.name)

/-- Whether a record is a well-formed plan. -/
def TransactionRecord.isPlan (record : TransactionRecord δ) : Bool :=
  isTransactionId record.id && host.isDate record.receiptAt && validFile host record.user &&
    record.user.name == USER_STEP && record.user.before.isSome && record.user.after.isSome &&
    record.files.length ≤ MAX_FILES &&
    record.files.all (fun file =>
      validFile host file && isUserArchiveFileName file.name && file.before != file.after) &&
    decide (record.files.map (·.name)).Nodup

/-- Whether a list of steps has each at most once. -/
def TransactionRecord.isProgress (record : TransactionRecord δ) (progress : List String) : Bool :=
  progress.length ≤ record.steps.length && decide progress.Nodup &&
    progress.all record.steps.contains

/-- Whether an audit reference is well formed. -/
def UserPreferenceCommitReference.isReference (reference : UserPreferenceCommitReference δ) :
    Bool :=
  isAuditId reference.id &&
    (match (host.seed reference.data).field "id" with
    | some (.str id) => id == reference.id
    | _ => false) &&
    (reference.toJson host).bytes ≤ 128 * 1024

/-- Whether a receipt is well formed. -/
def Receipt.isReceipt (receipt : Receipt) (receiptAt : String) : Bool :=
  receipt.report.settledAt == receiptAt && receipt.evidence.length ≤ MAX_FILES + 1 &&
    receipt.report.persisted == (receipt.state == .complete) &&
    (receipt.report.persisted ||
      match receipt.report.error with
      | some error => utf16Length error ≤ MAX_ERROR_CHARS
      | none => false)

/-- Whether a receipt's report fits its state. -/
def Receipt.reportFits (receipt : Receipt) (storageChanged : Bool) : Bool :=
  if receipt.state = .complete ∨ receipt.state = .none then
    receipt.report.outcome.isNone && receipt.report.storageChanged.isNone
  else
    receipt.report.outcome == some receipt.state &&
      receipt.report.storageChanged == some storageChanged

/-- The receipt of a record is read. -/
def decodeReceipt (record : TransactionRecord δ) (receipt : Receipt) : Except String Unit := do
  if receipt.isReceipt record.receiptAt = false then
    .error "Error: Invalid USER transaction receipt"
  else
    let (state, storageChanged) ← summarize host record receipt.evidence
    if receipt.state ≠ state ∨ receipt.storageChanged ≠ storageChanged ∨
        receipt.reportFits storageChanged = false then
      .error "Error: USER receipt contradicts its plan or progress"
    else .ok ()

def decode (record : TransactionRecord δ) : Except String Unit :=
  if record.isPlan host = false then .error "Error: Invalid USER transaction plan"
  else if record.isProgress record.attempted = false ∨
      record.isProgress record.completed = false then
    .error "Error: Invalid USER transaction progress"
  else if record.completed.all record.attempted.contains = false then
    .error "Error: USER transaction completion lacks an attempt"
  else if (record.audit.all fun reference => reference.isReference host) = false then
    .error "Error: Invalid USER transaction audit reference"
  else
    match record.receipt with
    | none => .ok ()
    | some receipt => decodeReceipt host record receipt

/-- The longest record that a transaction may come to. -/
def TransactionRecord.envelope (record : TransactionRecord δ) : TransactionRecord δ :=
  let steps := record.files ++ if record.user.before ≠ record.user.after then [record.user] else []
  let storageChanged : Bool := steps ≠ []
  { record with
    attempted := steps.map (·.name)
    completed := steps.map (·.name)
    receipt := some {
      state := .unknown
      storageChanged
      report := {
        persisted := false
        settledAt := record.receiptAt
        outcome := some .unknown
        storageChanged := some storageChanged
        error := some (String.ofList (List.replicate MAX_ERROR_CHARS '\x00')) }
      evidence := (record.planned host).map fun (path, file) => {
        path
        state := .unknown
        attempted := file.before != file.after } } }

/-- Check that the record has room for its progress and its receipt. -/
def validateCapacity (record : TransactionRecord δ) : Except String Unit :=
  if (record.envelope host).bytes host > MAX_RECORD_BYTES then
    .error "Error: USER transaction lacks capacity for its progress and terminal receipt"
  else .ok ()

end PiAdaptative.UserMemory
