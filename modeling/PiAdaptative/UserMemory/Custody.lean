import PiAdaptative.Foundations.Execution
import PiAdaptative.UserMemory.Settlement

/-!
# Custody of USER memory transactions

Over every run of calls, failures and crashes, a transaction keeps its file until its receipt is
settled and the stored files hold exactly what the receipt says.  A run that returns normally has
read every planned file back, except that a plan without changes whose first record was not saved is
credited without a look at the files.
-/

namespace PiAdaptative.UserMemory

variable {δ : Type} [DecidableEq δ]

namespace UserMemoryTransaction

open Operation

section Returning

variable (host : Host δ)

variable (record : TransactionRecord δ)

omit [DecidableEq δ] in
theorem writeFileAtomic_returns (fault : Fault) : Returns (writeFileAtomic record fault) :=
  (Returns.moves _).bind fun _ => Returns.pure _

theorem checkSaved_returns (error : Option String) : Returns (checkSaved host record error) := by
  refine Returns.read fun state => ?_
  split
  · exact Returns.pure _
  · exact Returns.ite (Returns.pure _) (Returns.pure _)

theorem save_returns (faults : SaveFaults) : Returns (save host record faults) := by
  refine Returns.ite (Returns.pure _) ?_
  split
  · exact Returns.pure _
  refine (Returns.move _).bind fun _ => (writeFileAtomic_returns record faults.write).bind
    fun result => ?_
  split
  · exact checkSaved_returns host record faults.check
  · refine Returns.read fun state => ?_
    split
    · exact Returns.pure _
    · exact Returns.ite (checkSaved_returns host record faults.check) (Returns.pure _)

theorem mark_returns (name : String) (complete : Bool) (faults : SaveFaults) :
    Returns (mark host record name complete faults) :=
  Returns.ite (Returns.pure _) ((save_returns host _ faults).bind fun _ => Returns.pure _)

theorem runScript_returns (script : Script) (record : TransactionRecord δ) :
    Returns (runScript host script record) := by
  induction script generalizing record with
  | returns warning => exact Returns.pure _
  | throws error => exact Returns.pure _
  | mark name complete faults saved failed savedIh failedIh =>
      unfold runScript
      refine (mark_returns host record name complete faults).bind fun result => ?_
      obtain ⟨marked, outcome⟩ := result
      cases outcome with
      | ok _ => exact savedIh marked
      | error text => exact failedIh text marked
  | store change rest ih => exact (Returns.move _).bind fun _ => ih record

omit [DecidableEq δ] in
theorem settleAudit_returns (report : UserPreferenceCommitReport) (fault : Fault) :
    Returns (settleAudit host record report fault) := by
  unfold settleAudit
  split
  · exact Returns.pure _
  refine Returns.ite (Returns.pure _) ?_
  split
  · exact Returns.pure _
  · exact Returns.ite ((Returns.move _).bind fun _ => Returns.pure _) (Returns.pure _)

omit [DecidableEq δ] in
theorem unlink_returns (fault : Fault) : Returns (unlink fault : Operation (State δ) Bool) := by
  refine Returns.read fun state => Returns.ite (Returns.pure _) ?_
  split
  · exact (Returns.move _).bind fun _ => Returns.pure _
  · exact (Returns.moves _).bind fun _ => Returns.pure _

omit [DecidableEq δ] in
theorem retire_returns (receipt current : Receipt) (faults : SettleFaults) :
    Returns (retire host record receipt current faults) := by
  refine (settleAudit_returns host record receipt.report faults.owner).bind fun result => ?_
  split
  · exact Returns.pure _
  refine Returns.ite ((unlink_returns faults.unlink).bind fun _ => ?_) (Returns.pure _)
  exact Returns.ite ((Returns.move _).bind fun _ => Returns.pure _) (Returns.pure _)

theorem settle_returns (error : Option String) (unstarted : Bool) (faults : SettleFaults) :
    Returns (settle host record error unstarted faults) := by
  refine Returns.read fun state => ?_
  split
  · exact Returns.pure _
  split
  · exact (retire_returns host _ _ _ faults).bind fun _ => Returns.pure _
  split
  · exact Returns.pure _
  refine (save_returns host _ faults.save).bind fun result => ?_
  split
  · exact Returns.pure _
  · exact (retire_returns host _ _ _ faults).bind fun _ => Returns.pure _

theorem perform_returns (request : RunRequest δ) : Returns (perform host record request) := by
  refine (save_returns host record _).bind fun result => ?_
  split
  · exact Returns.pure _
  refine (runScript_returns host request.execute record).bind fun result => ?_
  obtain ⟨last, outcome⟩ := result
  cases outcome with
  | ok warning => exact Returns.pure _
  | error text => exact Returns.pure _

theorem run_returns (request : RunRequest δ) : Returns (run host request) := by
  refine Returns.read fun state => ?_
  split
  · exact Returns.pure _
  refine (perform_returns host _ request).bind fun performed =>
    (settle_returns host _ _ _ _).bind fun settled => ?_
  exact Returns.read fun after => Returns.pure _

end Returning

end UserMemoryTransaction

open UserMemoryTransaction

variable (host : Host δ)

/-- What is promised of every run of calls, failures and crashes. -/
structure Custody (history : List (System δ × Event δ)) (target : System δ) : Prop where
  readable : ∀ record, target.state.file = some record →
    decode host record = .ok () ∧ record.bytes host ≤ MAX_RECORD_BYTES
  /-- A receipt stays, and the file is removed only where the stored files are as it says and its
  report is settled. -/
  conserved : ∀ before event, (before, event) ∈ history → (∀ change, event ≠ .disturb change) →
    ∀ after, before.Step host event after → Conserves host before.state after.state
  /-- A run that returns normally has read every planned file back. -/
  returned : ∀ before instance_ request, (before, .start instance_ (.run request)) ∈ history →
    ∀ warning, (run host request (before.stateFor instance_)).result = .ok (.ok warning) →
      ∃ record, admission host (before.stateFor instance_) request = .ok record ∧
        ((run host request (before.stateFor instance_)).final
          (before.stateFor instance_)).ReadBack record request.faults.settle.assess
  refused : ∀ before instance_ request, (before, .start instance_ (.run request)) ∈ history →
    before.state.file ≠ none →
      ∃ error, run host request (before.stateFor instance_) = .returned (.error error)
  /-- A recovery that reports a clear store leaves no transaction file. -/
  cleared : ∀ before instance_ faults, (before, .start instance_ (.recover faults)) ∈ history →
    ∀ recovery, (recover host faults (before.stateFor instance_)).result = .ok recovery →
      recovery.clear = true →
        ((recover host faults (before.stateFor instance_)).final
          (before.stateFor instance_)).file = none

/-- A plan that changes nothing is run, its first record is not saved, and a planned file is not
found as the plan has it. -/
def CreditsUnread (before : System δ) (event : Event δ) : Prop :=
  ∃ instance_ request record, event = .start instance_ (.run request) ∧
    admission host (before.stateFor instance_) request = .ok record ∧ record.Unchanged ∧
      request.faults.initial.saves = false ∧
        ¬(before.stateFor instance_).ReadBack record request.faults.settle.assess

variable {first second : State δ}

omit [DecidableEq δ] in
theorem State.Same.symm (same : first.Same second) : second.Same first :=
  ⟨same.user.symm, same.archive.symm⟩

variable {record : TransactionRecord δ}

omit [DecidableEq δ] in
theorem State.Same.readBack (same : first.Same second) {faults : AssessFaults}
    (read : first.ReadBack record faults) : second.ReadBack record faults :=
  ⟨same.holds read.holds, read.read⟩

omit [DecidableEq δ] in
theorem Conserves.of_same {before after : State δ} (file : after.file = before.file)
    (same : before.Same after) : Conserves host before after :=
  ⟨.inl file, .inl ⟨same.user, same.archive⟩⟩

namespace System

structure Sound (system : System δ) : Prop where
  readable : ∀ record, system.state.file = some record →
    decode host record = .ok () ∧ record.bytes host ≤ MAX_RECORD_BYTES
  running : ∀ call course, system.running = some (call, course) →
    course.Meets (Conserves host) (fun _ _ => True) system.state

omit [DecidableEq δ] in
theorem sound_initial (user : UserInspection) (archive : String → Option String) :
    (initial user archive : System δ).Sound host := by
  constructor
  · simp [initial]
  · simp [initial]

variable {host}

variable (host) in
theorem operation_conserves (call : Call δ) (before : State δ) :
    Operation.Triple (· = before) (call.operation host) (Conserves host) fun _ _ => True := by
  cases call with
  | run request =>
      have spec : Operation.Triple (· = before) (run host request) (Conserves host)
          fun _ _ => True := by
        rintro state rfl
        have ends := run_spec host request state
        generalize run host request state = course at ends ⊢
        rcases ends with ⟨text, -, refused⟩ | ⟨record, -, meets⟩
        · rw [refused]
          trivial
        · exact meets.mono (fun _ _ => id) fun _ _ _ => trivial
      dsimp only [Call.operation]
      generalize run host request = running at spec ⊢
      refine spec.bind fun result => ?_
      exact Operation.Triple.pure _ fun _ _ => trivial
  | recover faults =>
      have spec := recover_spec host before faults
      dsimp only [Call.operation]
      generalize recover host faults = recovering at spec ⊢
      refine spec.bind fun result => ?_
      exact Operation.Triple.pure _ fun _ _ => trivial

omit [DecidableEq δ] in
theorem Sound.readable_of_conserves {before : System δ} {after : State δ}
    (sound : before.Sound host) (conserves : Conserves host before.state after) : ∀ record, after.file = some record →
      decode host record = .ok () ∧ record.bytes host ≤ MAX_RECORD_BYTES := by
  intro record found
  rcases conserves.file with kept | ⟨written, file, in_order⟩ | ⟨gone, -⟩
  · exact sound.readable record (kept ▸ found)
  · cases file.symm.trans found
    exact ⟨in_order.decoded, in_order.fits⟩
  · rw [gone] at found
    cases found

variable {before after : System δ}

/-- Every step but an outside change conserves. -/
theorem Sound.conserves {event : Event δ} (sound : before.Sound host)
    (taken : before.Step host event after) (inside : ∀ change, event ≠ .disturb change) :
    Conserves host before.state after.state := by
  unfold Step next at taken
  split at taken
  case h_1 =>
    split at taken
    · cases taken
    · cases taken
      exact .of_same host rfl ⟨rfl, rfl⟩
  case h_2 =>
    split at taken
    case h_1 => cases taken
    case h_2 call state rest running =>
      cases taken
      exact (sound.running _ _ running).1
    case h_3 =>
      cases taken
      exact .of_same host rfl ⟨rfl, rfl⟩
  case h_3 =>
    split at taken
    all_goals
      cases taken
      exact .of_same host rfl ⟨rfl, rfl⟩
  case h_4 change => exact absurd rfl (inside change)

theorem Sound.step {event : Event δ} (sound : before.Sound host)
    (taken : before.Step host event after) : after.Sound host := by
  unfold Step next at taken
  split at taken
  case h_1 instance_ call =>
    split at taken
    · cases taken
    · cases taken
      refine ⟨sound.readable, fun other course found => ?_⟩
      have spec := operation_conserves host call (before.stateFor instance_)
      cases found
      exact spec _ rfl
  case h_2 =>
    split at taken
    case h_1 => cases taken
    case h_2 call state rest running =>
      cases taken
      obtain ⟨conserves, meets⟩ := sound.running _ _ running
      refine ⟨sound.readable_of_conserves conserves, fun other course found => ?_⟩
      cases found
      exact meets
    case h_3 =>
      cases taken
      exact ⟨sound.readable, by simp [keep]⟩
  case h_3 instance_ =>
    split at taken
    · cases taken
      exact ⟨sound.readable, by simp [keep]⟩
    next call running =>
      cases taken
      refine ⟨sound.readable, fun other course found => ?_⟩
      split at found
      · cases found
      · cases found
        exact sound.running _ _ running
  case h_4 change =>
    split at taken
    · cases taken
      next idle =>
        refine ⟨?_, fun other course found => ?_⟩
        · cases change <;> exact sound.readable
        · rw [show before.running = none by simpa using idle] at found
          cases found
    · cases taken

end System

/-- A plan that is credited unread returns normally. -/
theorem custody_lost {history : List (System δ × Event δ)} {target : System δ}
    {entry : System δ × Event δ} (member : entry ∈ history)
    (credits : CreditsUnread host entry.1 entry.2) : ¬Custody host history target := by
  obtain ⟨before, event⟩ := entry
  obtain ⟨instance_, request, record, rfl, admitted, unchanged, unsaved, unread⟩ := credits
  intro custody
  obtain ⟨result, returns⟩ := run_returns host request (before.stateFor instance_)
  rcases run_spec host request (before.stateFor instance_) with
    ⟨text, refused, -⟩ | ⟨other, found, meets⟩
  · cases refused.symm.trans admitted
  · cases found.symm.trans admitted
    have concluded := meets.returned returns
    obtain ⟨same, warning, ok⟩ := concluded.credited unsaved unchanged
    rw [ok] at returns
    obtain ⟨last, again, read⟩ := custody.returned before instance_ request member warning returns
    cases again.symm.trans admitted
    exact unread (same.symm.readBack read)

/-- While no unread plan is credited, every run keeps custody of its transactions, and a run that
credits one loses it. -/
theorem transactions_are_kept_iff {user : UserInspection} {archive : String → Option String}
    {history : List (System δ × Event δ)} {target : System δ}
    (run : Execution (System.Step host) (System.initial user archive) history target) :
    Custody host history target ↔
      ∀ entry ∈ history, ¬CreditsUnread host entry.1 entry.2 := by
  have sound : ∀ {earlier : List (System δ × Event δ)} {middle : System δ},
      Execution (System.Step host) (System.initial user archive) earlier middle →
      middle.Sound host :=
    fun earlier => earlier.preserves (System.Sound host) (System.sound_initial host user archive)
      fun held taken => held.step taken
  constructor
  · rintro custody entry member credits
    exact custody_lost host member credits custody
  · intro none_
    refine ⟨(sound run).readable, ?_, ?_, ?_, ?_⟩
    · intro before event member inside after taken
      obtain ⟨earlier, later, rfl⟩ := List.append_of_mem member
      obtain ⟨shorter, -⟩ := run.split_at
      exact (sound shorter).conserves taken inside
    · intro before instance_ request member warning returns
      rcases run_spec host request (before.stateFor instance_) with
        ⟨text, -, refused⟩ | ⟨record, admitted, meets⟩
      · rw [refused] at returns
        cases returns
      · refine ⟨record, admitted, ?_⟩
        have concluded := meets.returned returns
        by_cases credits : request.faults.initial.saves = true ∨ ¬record.Unchanged
        · exact concluded.read credits warning rfl
        · push Not at credits
          obtain ⟨unsaved, unchanged⟩ := credits
          obtain ⟨same, -⟩ := concluded.credited (Bool.eq_false_of_not_eq_true unsaved) unchanged
          refine same.readBack ?_
          by_contra unread
          exact none_ _ member ⟨instance_, request, record, rfl, admitted, unchanged,
            Bool.eq_false_of_not_eq_true unsaved, unread⟩
    · intro before instance_ request member pending
      rcases run_spec host request (before.stateFor instance_) with
        ⟨text, -, refused⟩ | ⟨record, admitted, -⟩
      · exact ⟨.plain text, refused⟩
      · exact absurd (admission_spec admitted).absent pending
    · intro before instance_ faults member recovery returns clear
      exact (recover_spec host (before.stateFor instance_) faults _ rfl).returned returns clear

/-- A store of USER memory whose `USER.md` is empty or has a title. -/
def plainHost : Host Unit where
  path := "/memory/state.json.transaction.json"
  userPath := "/memory/USER.md"
  archivePath := fun name => "/memory/archive/" ++ name
  inArchive := fun path => "/memory/archive/".toList.isPrefixOf path.toList
  basename := fun path => String.ofList (path.toList.drop "/memory/archive/".length)
  sha256 := fun text =>
    if text = "" then "e3b0c44298fc1c149afbf4c8996fb92427ae41e4649b934ca495991b7852b855"
    else "3df4017b079b9d358091ecd7e43068b51d35e8831fb4186379e42d3d8cab3797"
  isDate := fun text => text = "2026-01-01T00:00:00.000Z"
  seed := fun _ => .obj []
  settles := false

def noFault : SaveFaults where
  reread := none
  write := { done := true, error := none }
  check := none

/-- A run that leaves a text in `USER.md`. -/
def userRun (after : String) (initial : SaveFaults) (assess : AssessFaults) (execute : Script) :
    RunRequest Unit where
  plan := { userContent := after, files := [] }
  userBefore := ""
  audit := none
  id := "00000000-0000-4000-8000-000000000000"
  now := "2026-01-01T00:00:00.000Z"
  execute
  faults := {
    read := none
    initial
    settle := {
      assess
      save := noFault
      owner := { done := true, error := none }
      unlink := { done := true, error := none } }
    assess := [] }

/-- A `USER.md` with a title. -/
def titled : String := "# USER\n"

/-- The record of a run that leaves a text in `USER.md`. -/
def userRecord (after : String) : TransactionRecord Unit :=
  initialRecord plainHost (userRun after noFault [] (.returns none)) []

theorem textBytes_replicate (count : Nat) :
    Json.textBytes (String.ofList (List.replicate count '\x00')) = 2 + 6 * count := by
  have six : escapedBytes '\x00' = 6 := by decide
  rw [Json.textBytes, String.toList_ofList, List.map_replicate, six, List.sum_replicate_nat,
    Nat.mul_comm]

/-- The longest record of a transaction, with another text as its error. -/
def shortEnvelope (record : TransactionRecord Unit) (text : String) : TransactionRecord Unit :=
  { record.envelope plainHost with
    receipt := (record.envelope plainHost).receipt.map fun receipt =>
      { receipt with report := { receipt.report with error := some text } } }

theorem shortEnvelope_bytes (record : TransactionRecord Unit) (text : String) :
    (shortEnvelope record text).bytes plainHost + 2 =
      (shortEnvelope record "").bytes plainHost + Json.textBytes text := by
  have empty : Json.textBytes "" = 2 := by decide +kernel
  simp only [shortEnvelope, TransactionRecord.envelope, TransactionRecord.bytes,
    TransactionRecord.toJson, Json.bytes, Json.fieldsBytes_append, Option.map_some,
    Json.optionalField, Json.fieldsBytes, Receipt.toJson, UserPreferenceCommitReport.toJson,
    empty]
  omega

theorem userRecord_admitted {after : String} (known : after = "" ∨ after = titled)
    (initial : SaveFaults) (assess : AssessFaults) (execute : Script) {state : State Unit}
    (absent : state.file = none) :
    admission plainHost state (userRun after initial assess execute) = .ok (userRecord after) := by
  have decoded : decode plainHost (userRecord after) = .ok () := by
    rcases known with rfl | rfl
    · have found : (decode plainHost (userRecord "")).toOption = some () := by decide +kernel
      cases same : decode plainHost (userRecord "") with
      | ok _ => rfl
      | error text =>
          rw [same] at found
          cases found
    · have found : (decode plainHost (userRecord titled)).toOption = some () := by decide +kernel
      cases same : decode plainHost (userRecord titled) with
      | ok _ => rfl
      | error text =>
          rw [same] at found
          cases found
  have short : (shortEnvelope (userRecord after) "").bytes plainHost ≤ 2000 := by
    rcases known with rfl | rfl
    · decide +kernel
    · decide +kernel
  have grows := shortEnvelope_bytes (userRecord after)
    (String.ofList (List.replicate MAX_ERROR_CHARS '\x00'))
  rw [textBytes_replicate] at grows
  have capacity : validateCapacity plainHost (userRecord after) = .ok () := by
    have size : (userRecord after).envelope plainHost = shortEnvelope (userRecord after)
        (String.ofList (List.replicate MAX_ERROR_CHARS '\x00')) := rfl
    rw [validateCapacity, if_neg]
    rw [size]
    have units : MAX_ERROR_CHARS = 2048 := rfl
    have bound : MAX_RECORD_BYTES = 41943040 := rfl
    omega
  obtain ⟨request, known⟩ : ∃ request, request = userRun after initial assess execute := ⟨_, rfl⟩
  have none_ : read plainHost state request.faults.read = .ok none := by
    simp [UserMemoryTransaction.read, known, userRun, absent]
  have plan : request.plan.files.mapM (plannedFile plainHost) = .ok [] := by rw [known]; rfl
  have first : initialRecord plainHost request [] = userRecord after := by rw [known]; rfl
  rw [← known]
  have next : ∀ {α β : Type} (value : α) (rest : α → Except String β),
      (Except.ok value >>= rest) = rest value := fun _ _ => rfl
  unfold admission
  rw [if_neg (by simp [known, userRun]), none_, next]
  dsimp only
  rw [plan, next, first, decoded, next, capacity, next]

theorem operation_admitted {host : Host δ} {state : State δ} {request : RunRequest δ}
    (admitted : admission host state request = .ok record) :
    (Call.run request).operation host state =
      (execute host record request >>= fun result => pure (Answer.run result) :
        Operation (State δ) Answer) state := by
  show Course.andThen _ state (run host request state) = Course.andThen _ state _
  rw [run_admitted admitted]

/-- `USER.md` is marked, written and marked again. -/
def titleScript : Script :=
  .mark USER_STEP false noFault
    (.store (.user { content := titled, recognized := true })
      (.mark USER_STEP true noFault (.returns none) .throws)) .throws

/-- A run that gives `USER.md` a title leaves no transaction behind. -/
theorem titled_run_is_kept : ∃ history target,
    Execution (System.Step plainHost)
      (System.initial { content := "", recognized := true } fun _ => none) history target ∧
    target.state.file = none ∧ target.state.user.content = titled ∧
    Custody plainHost history target := by
  obtain ⟨first, known⟩ : ∃ first : System Unit,
    first = System.initial { content := "", recognized := true } fun _ => none := ⟨_, rfl⟩
  obtain ⟨second, begun⟩ : ∃ second : System Unit, second = {
      state := first.stateFor 0
      running := some ((0, .run (userRun titled noFault [] titleScript)),
        (execute plainHost (userRecord titled) (userRun titled noFault [] titleScript) >>=
          fun result => pure (Answer.run result) : Operation (State Unit) Answer)
            (first.stateFor 0))
      retained := first.retained } := ⟨_, rfl⟩
  have admitted : admission plainHost (first.stateFor 0)
      (userRun titled noFault [] titleScript) = .ok (userRecord titled) :=
    userRecord_admitted (.inr rfl) noFault [] titleScript (by rw [known]; rfl)
  have started : System.Step plainHost first
      (.start 0 (.run (userRun titled noFault [] titleScript))) second := by
    have operation := operation_admitted admitted
    have idle : first.running = none := by rw [known]; rfl
    unfold System.Step System.next
    simp only [idle, operation, begun]
  have finished : ((List.replicate 12 Event.advance).foldlM (System.next plainHost) second).map
      (fun target => (target.state.file.isNone, target.state.user.content)) =
        some (true, titled) := by
    rw [begun, known]
    decide +kernel
  obtain ⟨target, reached, ends⟩ := Option.map_eq_some_iff.mp finished
  obtain ⟨later, rest, labels⟩ := Execution.of_foldlM reached
  have run := (Execution.single started).trans rest
  simp only [Prod.mk.injEq, Option.isNone_iff_eq_none] at ends
  rw [known] at run
  refine ⟨_, target, run, ends.1, ends.2, (transactions_are_kept_iff plainHost run).mpr ?_⟩
  rintro entry member ⟨instance_, request, record, event, found, unchanged, -, -⟩
  rcases List.mem_append.mp member with start | advance
  · obtain rfl := List.mem_singleton.mp start
    cases event
    rw [known] at admitted
    cases found.symm.trans admitted
    exact absurd unchanged.1 (by decide +kernel)
  · have label : entry.2 ∈ List.replicate 12 (Event.advance : Event Unit) :=
      labels ▸ List.mem_map_of_mem advance
    rw [List.eq_of_mem_replicate label] at event
    cases event

/-- The first record of a plan without changes is lost, and `USER.md` cannot be read. -/
def lostRun : RunRequest Unit :=
  userRun "" { noFault with write := { done := false, error := some "Error: disk full" } }
    [some "Error: input/output error"] (.returns none)

/-- A run returns normally though `USER.md` was not read back. -/
theorem unread_plan_is_credited :
    ¬∀ (user : UserInspection) (archive : String → Option String)
        (history : List (System Unit × Event Unit)) (target : System Unit),
      Execution (System.Step plainHost) (System.initial user archive) history target →
        Custody plainHost history target := by
  intro kept
  obtain ⟨first, known⟩ : ∃ first : System Unit,
    first = System.initial { content := "", recognized := true } fun _ => none := ⟨_, rfl⟩
  have admitted : admission plainHost (first.stateFor 0) lostRun = .ok (userRecord "") :=
    userRecord_admitted (.inl rfl) _ _ _ (by rw [known]; rfl)
  have idle : first.running = none := by rw [known]; rfl
  obtain ⟨second, started⟩ : ∃ second, System.Step plainHost first (.start 0 (.run lostRun))
      second := by
    unfold System.Step System.next
    simp only [idle]
    exact ⟨_, rfl⟩
  have run := Execution.single started
  refine custody_lost plainHost (List.mem_singleton.mpr rfl) ?_ (kept _ _ _ _ (known ▸ run))
  refine ⟨0, lostRun, userRecord "", rfl, known ▸ admitted, ⟨rfl, nofun⟩, rfl, fun read => ?_⟩
  exact nomatch read.read 0 (Nat.le_refl 0)

end PiAdaptative.UserMemory
