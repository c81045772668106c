import PiAdaptative.Foundations.Interruption
import PiAdaptative.UserMemory.Records

/-!
# USER memory transactions

The operations of `UserMemoryTransaction`, each made under the lock of `USER.md`. Every file
operation may fail, with or without its effect, and the process may end between any two changes. What happens
is given with the call, one fault for each file operation; the changes a call makes are those of the
durable files, of what the instance retains and of the settled reports.
-/

namespace PiAdaptative.UserMemory

/-- A file operation: whether it takes effect, and the error it reports. -/
structure Fault where
  done : Bool
  error : Option String

/-- The faults of one `save`. -/
structure SaveFaults where
  reread : Option String
  write : Fault
  check : Option String

/-- The faults of one `assess`: for each planned file the error of its read. -/
abbrev AssessFaults := List (Option String)

/-- The faults of one `settle`. -/
structure SettleFaults where
  assess : AssessFaults
  save : SaveFaults
  /-- Whether the owner of the audit acknowledges, or the error it throws. -/
  owner : Fault
  unlink : Fault

/-- What `inspectUser` finds. -/
structure UserInspection where
  content : String
  recognized : Bool
  deriving DecidableEq

/-- The durable files, what the instance retains, and the reports that were settled. -/
structure State (δ : Type) where
  file : Option (TransactionRecord δ)
  user : UserInspection
  archive : String → Option String
  retained : Option (TransactionRecord δ)
  settled : List (UserPreferenceCommitReference δ × UserPreferenceCommitReport)

inductive StorageChange where
  | user (inspection : UserInspection)
  | archive (name : String) (content : Option String)

/-- The stored files after a change. -/
def State.store {δ : Type} (state : State δ) : StorageChange → State δ
  | .user inspection => { state with user := inspection }
  | .archive name content =>
      { state with archive := fun other => if other = name then content else state.archive other }

/-- What `execute` does: it marks steps, sees whether a mark failed, and leaves any contents in the
stored files. -/
inductive Script where
  | returns (warning : Option String)
  | throws (error : String)
  | mark (name : String) (complete : Bool) (faults : SaveFaults) (saved : Script)
      (failed : String → Script)
  | store (change : StorageChange) (rest : Script)

structure ArchiveFileChange where
  path : String
  before : Option String
  after : Option String

/-- A planned USER operation; `files` are the shards and the index. -/
structure ArchiveMutationPlan where
  userContent : String
  files : List ArchiveFileChange

/-- Why `run` throws. -/
inductive RunError where
  | plain (text : String)
  /-- A `MemoryMutationOutcomeError`. -/
  | outcome (cause : String) (state : ReceiptState) (storageChanged : Bool)
      (evidence : List MemoryMutationEvidence)

/-- What `recover` reports. -/
structure Recovery where
  clear : Bool
  message : Option String

namespace UserMemoryTransaction

variable {δ : Type} [DecidableEq δ] (host : Host δ)

def read (state : State δ) (error : Option String) :
    Except String (Option (TransactionRecord δ)) :=
  match error with
  | some text => .error text
  | none =>
      match state.file with
      | none => .ok none
      | some record => do
          decode host record
          .ok (some record)

def retain (record : Option (TransactionRecord δ)) : Operation (State δ) Unit :=
  .move fun state => { state with retained := record }

def writeFileAtomic (record : TransactionRecord δ) (fault : Fault) :
    Operation (State δ) (Except String Unit) := do
  Operation.moves (if fault.done then [fun state => { state with file := some record }] else [])
  pure (match fault.error with
    | some text => .error text
    | none => .ok ())

/-- Check that the transaction file holds the record. -/
def checkSaved (record : TransactionRecord δ) (error : Option String) :
    Operation (State δ) (Except String Unit) := do
  let state ← Operation.read
  match read host state error with
  | .error text => pure (.error text)
  | .ok found =>
      if found = some record then pure (.ok ())
      else pure (.error "Error: USER transaction changed while being recorded")

def save (record : TransactionRecord δ) (faults : SaveFaults) :
    Operation (State δ) (Except String Unit) :=
  if record.bytes host > MAX_RECORD_BYTES then
    pure (.error "Error: USER transaction exceeds its serialized byte limit")
  else
    match decode host record with
    | .error text => pure (.error text)
    | .ok () => do
        retain (some record)
        match ← writeFileAtomic record faults.write with
        | .ok () => checkSaved host record faults.check
        | .error text => do
            let state ← Operation.read
            match read host state faults.reread with
            | .error other => pure (.error other)
            | .ok found =>
                if found = some record then checkSaved host record faults.check
                else pure (.error text)

/-- What is found of a planned file; `none` is an unreadable one. -/
def contentOf (state : State δ) (file : StoredFile) (error : Option String) (user : Bool) :
    Option (Option String) :=
  if error.isSome then none
  else if user then if state.user.recognized then some (some state.user.content) else none
  else some (state.archive file.name)

/-- The evidence about a planned file. -/
def evidenceOf (record : TransactionRecord δ) (path : String) (file : StoredFile)
    (content : Option (Option String)) : MemoryMutationEvidence :=
  let attempted := record.attempted.contains file.name
  { path
    state :=
      match content with
      | none => .unknown
      | some content =>
          if file.before = file.after ∧ content = file.before then .before
          else if content = file.after ∧ attempted = true then .after
          else if content = file.before ∧ record.completed.contains file.name = false then .before
          else .unknown
    attempted }

/-- `assess`: the receipt for the stored files as they are. -/
def assess (state : State δ) (record : TransactionRecord δ) (error : Option String)
    (faults : AssessFaults) : Except String Receipt :=
  let evidence := (record.planned host).zipIdx.map fun ((path, file), index) =>
    evidenceOf record path file
      (contentOf state file (faults.getD index none) (index == record.files.length))
  makeReceipt host record evidence error

/-- The receipt of an operation that did not start. -/
def unstartedReceipt (record : TransactionRecord δ) : Except String Receipt :=
  makeReceipt host record ((record.planned host).map fun (path, _) => {
    path
    state := .before
    attempted := false }) none

/-- Tell the owner of the audit; without an owner that settles nothing is acknowledged. -/
def settleAudit (record : TransactionRecord δ) (report : UserPreferenceCommitReport)
    (fault : Fault) : Operation (State δ) (Except String Bool) :=
  match record.audit with
  | none => pure (.ok true)
  | some reference =>
      if host.settles = false then pure (.ok false)
      else
        match fault.error with
        | some text => pure (.error text)
        | none =>
            if fault.done then do
              Operation.move fun state =>
                { state with settled := state.settled ++ [(reference, report)] }
              pure (.ok true)
            else pure (.ok false)

/-- Remove the transaction file, where it is there: whether it is gone. -/
def unlink (fault : Fault) : Operation (State δ) Bool := do
  let state ← Operation.read
  if state.file.isNone then pure true
  else
    match fault.error with
    | none => do
        Operation.move fun state => { state with file := none }
        pure true
    | some _ => do
        Operation.moves (if fault.done then [fun state => { state with file := none }] else [])
        pure false

/-- The settlement of a receipt: whether the transaction is retired. -/
def retire (record : TransactionRecord δ) (receipt current : Receipt) (faults : SettleFaults) :
    Operation (State δ) (Except String (Receipt × Bool)) := do
  match ← settleAudit host record receipt.report faults.owner with
  | .error text => pure (.error text)
  | .ok acknowledged =>
      if acknowledged ∧ (receipt.state = .complete ∨ receipt.state = .none) ∧
          current.state = receipt.state then do
        if ← unlink faults.unlink then
          retain none
          pure (.ok (receipt, true))
        else pure (.ok (receipt, false))
      else pure (.ok (receipt, false))

/-- `settle`; the record comes back with its receipt. -/
def settle (record : TransactionRecord δ) (error : Option String) (unstarted : Bool)
    (faults : SettleFaults) :
    Operation (State δ) (TransactionRecord δ × Except String (Receipt × Bool)) := do
  let state ← Operation.read
  match assess host state record error faults.assess with
  | .error text => pure (record, .error text)
  | .ok current =>
      match record.receipt with
      | some receipt => do
          let result ← retire host record receipt current faults
          pure (record, result)
      | none =>
          match if unstarted then unstartedReceipt host record else .ok current with
          | .error text => pure (record, .error text)
          | .ok receipt => do
              let record := { record with receipt := some receipt }
              match ← save host record faults.save with
              | .error text => pure (record, .error text)
              | .ok () => do
                  let result ← retire host record receipt current faults
                  pure (record, result)

/-- The faults of one `recover`. -/
structure RecoverFaults where
  read : Option String
  /-- The owner of the audit of a retained record that is no longer on disk. -/
  owner : Fault
  restore : SaveFaults
  merge : SaveFaults
  settle : SettleFaults

/-- Drop a retained record that is no longer on disk, once its receipt is settled. -/
def dropRetained (found : Option (TransactionRecord δ)) (fault : Fault) :
    Operation (State δ) (Except String Unit) := do
  let state ← Operation.read
  match state.retained.bind fun retained => retained.receipt.map (retained, ·) with
  | none => pure (.ok ())
  | some (retained, receipt) =>
      if some retained.id ≠ found.map (·.id) ∧
          (receipt.state = .complete ∨ receipt.state = .none) then do
        match ← settleAudit host retained receipt.report fault with
        | .error text => pure (.error text)
        | .ok acknowledged => do
            Operation.moves
              (if acknowledged then [fun state => { state with retained := none }] else [])
            pure (.ok ())
      else pure (.ok ())

/-- The record to settle: the one on disk, or else the retained one, which is saved again. -/
def recordToSettle (found : Option (TransactionRecord δ)) (faults : SaveFaults) :
    Operation (State δ) (Except String (Option (TransactionRecord δ))) := do
  match found with
  | some record => pure (.ok (some record))
  | none => do
      let state ← Operation.read
      match state.retained with
      | none => pure (.ok none)
      | some retained => do
          match ← save host retained faults with
          | .error text => pure (.error text)
          | .ok () => pure (.ok (some retained))

/-- A retained receipt is the one of the record. -/
def mergeRetained (record : TransactionRecord δ) (faults : SaveFaults) :
    Operation (State δ) (Except String (TransactionRecord δ)) := do
  let state ← Operation.read
  match state.retained with
  | none => pure (.ok record)
  | some retained =>
      if retained.id ≠ record.id then
        pure (.error "Error: A different USER transaction replaced the retained obligation")
      else
        match retained.receipt, record.receipt with
        | none, _ => pure (.ok record)
        | some kept, some receipt =>
            if receipt = kept then pure (.ok record)
            else pure (.error "Error: Conflicting retained USER transaction receipt")
        | some _, none => do
            match ← save host retained faults with
            | .error text => pure (.error text)
            | .ok () => pure (.ok retained)

/-- The answer of `recover` where it throws. -/
def requiresInspection (text : String) : Recovery where
  clear := false
  message := some (s!"USER transaction requires inspection at {host.path}: " ++
    Session.clampText text 500)

def recover (faults : RecoverFaults) : Operation (State δ) Recovery := do
  let state ← Operation.read
  match read host state faults.read with
  | .error text => pure (requiresInspection host text)
  | .ok found => do
      match ← dropRetained host found faults.owner with
      | .error text => pure (requiresInspection host text)
      | .ok () => do
          match ← recordToSettle host found faults.restore with
          | .error text => pure (requiresInspection host text)
          | .ok none => pure { clear := true, message := none }
          | .ok (some record) => do
              match ← mergeRetained host record faults.merge with
              | .error text => pure (requiresInspection host text)
              | .ok record => do
                  let (_, result) ← settle host record none false faults.settle
                  match result with
                  | .error text => pure (requiresInspection host text)
                  | .ok (receipt, clear) =>
                      if clear then pure { clear := true, message := none }
                      else pure {
                        clear := false
                        message := some (s!"USER transaction {record.id} remains " ++
                          s!"{receipt.state.text}; evidence retained at {host.path}. " ++
                          "Inspect it before another USER mutation.") }

/-- The faults of one `run`, without those of its marks. -/
structure RunFaults where
  read : Option String
  initial : SaveFaults
  settle : SettleFaults
  assess : AssessFaults

/-- A call of `run`, with the drawn id and the time. -/
structure RunRequest (δ : Type) where
  plan : ArchiveMutationPlan
  userBefore : String
  audit : Option (UserPreferenceCommitReference δ)
  id : String
  now : String
  execute : Script
  faults : RunFaults

def storedFile (name : String) (before after : Option String) : StoredFile where
  name
  before
  after
  beforeDigest := digest host before
  afterDigest := digest host after

def plannedFile (change : ArchiveFileChange) : Except String StoredFile :=
  if host.inArchive change.path = false ∨
      isUserArchiveFileName (host.basename change.path) = false then
    .error "Error: USER transaction escaped its archive owner"
  else .ok (storedFile host (host.basename change.path) change.before change.after)

/-- The record of a plan before anything was attempted. -/
def initialRecord (request : RunRequest δ) (files : List StoredFile) : TransactionRecord δ where
  id := request.id
  receiptAt := request.now
  user := storedFile host USER_STEP (some request.userBefore) (some request.plan.userContent)
  files
  audit := request.audit
  attempted := []
  completed := []
  receipt := none

/-- The record of an admitted plan. -/
def admission (state : State δ) (request : RunRequest δ) :
    Except String (TransactionRecord δ) := do
  if request.audit.isSome ∧ host.settles = false then
    .error "Error: USER audit settlement owner is unavailable"
  else
    match ← read host state request.faults.read with
    | some _ => .error s!"Error: A pending USER transaction exists at {host.path}"
    | none =>
        let files ← request.plan.files.mapM (plannedFile host)
        let record := initialRecord host request files
        decode host record
        validateCapacity host record
        .ok record

/-- A step of the record is marked and saved. -/
def mark (record : TransactionRecord δ) (name : String) (complete : Bool) (faults : SaveFaults) :
    Operation (State δ) (TransactionRecord δ × Except String Unit) :=
  if (if complete then record.completed else record.attempted).contains name then
    pure (record, .ok ())
  else do
    let record :=
      if complete then { record with completed := record.completed ++ [name] }
      else { record with attempted := record.attempted ++ [name] }
    let result ← save host record faults
    pure (record, result)

/-- `execute`, with the progress it marks. -/
def runScript : Script → TransactionRecord δ →
    Operation (State δ) (TransactionRecord δ × Except String (Option String))
  | .returns warning, record => pure (record, .ok warning)
  | .throws error, record => pure (record, .error error)
  | .mark name complete faults saved failed, record => do
      let (record, result) ← mark host record name complete faults
      match result with
      | .ok () => runScript saved record
      | .error text => runScript (failed text) record
  | .store change rest, record => do
      Operation.move fun state => state.store change
      runScript rest record

structure Performed (δ : Type) where
  record : TransactionRecord δ
  started : Bool
  warning : Option String
  failure : Option String

/-- Save the plan and execute it. -/
def perform (record : TransactionRecord δ) (request : RunRequest δ) :
    Operation (State δ) (Performed δ) := do
  match ← save host record request.faults.initial with
  | .error text => pure { record, started := false, warning := none, failure := some text }
  | .ok () => do
      let (record, result) ← runScript host request.execute record
      match result with
      | .error text => pure { record, started := true, warning := none, failure := some text }
      | .ok warning => pure { record, started := true, warning, failure := none }

/-- The end of `run` after a failed settlement. -/
def unsettled (state : State δ) (performed : Performed δ) (record : TransactionRecord δ)
    (text : String) (faults : AssessFaults) : Except RunError (Option String) :=
  let found : Except String Receipt :=
    match record.receipt with
    | some receipt => .ok receipt
    | none => assess host state record (some (performed.failure.getD text)) faults
  match found with
  | .error other => .error (.plain other)
  | .ok receipt =>
      match receipt.state with
      | .complete => .ok (some (
          s!"USER content committed; transaction receipt remains pending at {host.path}. " ++
            Session.clampText text 300))
      | .none => .error (.plain (s!"Error: USER transaction made no storage changes; receipt " ++
          s!"remains pending at {host.path}. " ++
          Session.clampText (performed.failure.getD text) 300))
      | state => .error (.outcome text state receipt.storageChanged receipt.evidence)

/-- The end of `run` after a settlement. -/
def concluded (performed : Performed δ) (receipt : Receipt) (clear : Bool) :
    Except RunError (Option String) :=
  match receipt.state with
  | .complete =>
      let notes := [performed.warning,
        if clear then none
        else some (s!"USER content committed; audit or transaction cleanup remains pending at " ++
          s!"{host.path}."),
        performed.failure.map fun failure =>
          "Commit acknowledgement was reconciled: " ++ Session.clampText failure 300]
      let texts := (notes.filterMap id).filter (· ≠ "")
      .ok (if texts.isEmpty then none else some (" ".intercalate texts))
  | .none =>
      .error (.plain (performed.failure.getD "Error: USER transaction made no changes"))
  | state =>
      .error (.outcome (s!"USER transaction retained at {host.path}: " ++
        performed.failure.getD "incomplete") state receipt.storageChanged receipt.evidence)

/-- Execute an admitted plan and settle it. -/
def execute (record : TransactionRecord δ) (request : RunRequest δ) :
    Operation (State δ) (Except RunError (Option String)) := do
  let performed ← perform host record request
  let (record, result) ← settle host performed.record performed.failure (!performed.started)
    request.faults.settle
  let state ← Operation.read
  pure (match result with
    | .error text => unsettled host state performed record text request.faults.assess
    | .ok (receipt, clear) => concluded host performed receipt clear)

def run (request : RunRequest δ) :
    Operation (State δ) (Except RunError (Option String)) := do
  let state ← Operation.read
  match admission host state request with
  | .error text => pure (.error (.plain text))
  | .ok record => execute host record request

end UserMemoryTransaction

inductive Call (δ : Type) where
  | run (request : UserMemoryTransaction.RunRequest δ)
  | recover (faults : UserMemoryTransaction.RecoverFaults)

inductive Answer where
  | run (result : Except RunError (Option String))
  | recover (recovery : Recovery)

variable {δ : Type} [DecidableEq δ]

def Call.operation (host : Host δ) : Call δ → Operation (State δ) Answer
  | .run request => do
      let result ← UserMemoryTransaction.run host request
      pure (.run result)
  | .recover faults => do
      let recovery ← UserMemoryTransaction.recover host faults
      pure (.recover recovery)

/-- The files, the call under way with its instance, and what the other instances retain. -/
structure System (δ : Type) where
  state : State δ
  running : Option ((Nat × Call δ) × Course (State δ) Answer)
  retained : Nat → Option (TransactionRecord δ)

inductive Event (δ : Type) where
  | start (instance_ : Nat) (call : Call δ)
  | advance
  | crash (instance_ : Nat)
  /-- Someone else changes the stored files while no call is under way. -/
  | disturb (change : StorageChange)

namespace System

/-- No transaction is pending. -/
def initial (user : UserInspection) (archive : String → Option String) : System δ where
  state := {
    file := none
    user
    archive
    retained := none
    settled := [] }
  running := none
  retained := fun _ => none

/-- The state in which an instance is called. -/
def stateFor (system : System δ) (instance_ : Nat) : State δ :=
  { system.state with retained := system.retained instance_ }

/-- An instance keeps a record for later calls. -/
def keep (system : System δ) (instance_ : Nat) (record : Option (TransactionRecord δ)) :
    System δ where
  state := system.state
  running := none
  retained := fun other => if other = instance_ then record else system.retained other

/-- What an event makes of the system, where it can happen. -/
def next (host : Host δ) (system : System δ) : Event δ → Option (System δ)
  | .start instance_ call =>
      match system.running with
      | some _ => none
      | none => some { system with
          state := system.stateFor instance_
          running := some ((instance_, call), call.operation host (system.stateFor instance_)) }
  | .advance =>
      match system.running with
      | none => none
      | some (call, .moved state rest) =>
          some { system with
            state
            running := some (call, rest) }
      | some ((instance_, _), _) => some (system.keep instance_ system.state.retained)
  | .crash instance_ =>
      match system.running with
      | none => some (system.keep instance_ none)
      | some call =>
          some { system.keep instance_ none with
            running := if call.1.1 = instance_ then none else some call }
  | .disturb change =>
      if system.running.isNone then some { system with state := system.state.store change }
      else none

def Step (host : Host δ) (before : System δ) (event : Event δ) (after : System δ) : Prop :=
  before.next host event = some after

end System

end PiAdaptative.UserMemory
