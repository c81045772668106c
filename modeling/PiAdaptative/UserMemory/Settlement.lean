import PiAdaptative.UserMemory.Classification

/-!
# Saving, settling and recovering a transaction

What every move of an operation does to the transaction file and the stored files, and what an
operation that returns says about them.
-/

namespace PiAdaptative.UserMemory

variable {δ : Type}

/-- A record may be written over what the transaction file holds. -/
structure Written (host : Host δ) (before : State δ) (record : TransactionRecord δ) : Prop where
  decoded : decode host record = .ok ()
  fits : record.bytes host ≤ MAX_RECORD_BYTES
  keeps : ∀ held, before.file = some held →
    held.id = record.id ∧ (held.receipt = none ∨ held.receipt = record.receipt)

/-- A record may be retired: its receipt is settled, and the stored files are as it says. -/
structure Retired (before : State δ) (record : TransactionRecord δ) (receipt : Receipt) : Prop where
  recorded : record.receipt = some receipt
  matches_ : (receipt.state = .complete ∧ before.Holds record (·.after)) ∨
    (receipt.state = .none ∧ before.Holds record (·.before))
  settled : ∀ reference, record.audit = some reference →
    (reference, receipt.report) ∈ before.settled

/-- The transaction file is kept, written or retired, and the stored files change only while an
unfinished record is on disk. -/
structure Conserves (host : Host δ) (before after : State δ) : Prop where
  file : after.file = before.file ∨
    (∃ record, after.file = some record ∧ Written host before record) ∨
    (after.file = none ∧ ∃ record receipt, before.file = some record ∧
      Retired before record receipt)
  storage : (after.user = before.user ∧ after.archive = before.archive) ∨
    (after.file = before.file ∧ ∃ record, before.file = some record ∧ record.receipt = none)

structure State.Same (first second : State δ) : Prop where
  user : second.user = first.user
  archive : second.archive = first.archive

theorem State.Same.refl (state : State δ) : state.Same state := ⟨rfl, rfl⟩

theorem State.Same.trans {first second third : State δ} (same : first.Same second)
    (other : second.Same third) : first.Same third :=
  ⟨other.user.trans same.user, other.archive.trans same.archive⟩

variable {record : TransactionRecord δ}

theorem State.Same.holds {first second : State δ} (same : first.Same second)
    {side : StoredFile → Option String} (holds : first.Holds record side) :
    second.Holds record side := by
  obtain ⟨recognized, user, files⟩ := holds
  refine ⟨?_, ?_, ?_⟩
  · rw [same.user]
    exact recognized
  · rw [same.user]
    exact user
  · rw [same.archive]
    exact files

/-- Whether a save whose record is in order succeeds where no record is on disk. -/
def SaveFaults.saves (faults : SaveFaults) : Bool :=
  faults.write.done && (faults.write.error.isNone || faults.reread.isNone) && faults.check.isNone

namespace UserMemoryTransaction

attribute [local irreducible] Operation.Triple

open Operation

variable (host : Host δ)

structure Saved (before : State δ) (record : TransactionRecord δ) (faults : SaveFaults)
    (result : Except String Unit) (after : State δ) : Prop where
  same : before.Same after
  file : after.file = before.file ∨ after.file = some record
  stored : result = .ok () → after.file = some record
  succeeds : before.file = none → decode host record = .ok () →
    record.bytes host ≤ MAX_RECORD_BYTES → (result = .ok () ↔ faults.saves = true)

/-- What was on disk before is kept, or the record is. -/
structure Kept (before : State δ) (record : TransactionRecord δ) (fault : Fault)
    (after : State δ) : Prop where
  same : before.Same after
  file : after.file = if fault.done then some record else before.file

variable {before after : State δ} {fault : Fault}

theorem Kept.present (kept : Kept before record fault after) (done : fault.done = true) :
    after.file = some record :=
  kept.file.trans (if_pos done)

theorem Kept.missing (kept : Kept before record fault after) (undone : fault.done = false) :
    after.file = before.file :=
  kept.file.trans (if_neg (by simp [undone]))

theorem Kept.either (kept : Kept before record fault after) :
    after.file = before.file ∨ after.file = some record := by
  cases done : fault.done with
  | true => exact .inr (kept.present done)
  | false => exact .inl (kept.missing done)

variable {host} {before : State δ} {record : TransactionRecord δ}

theorem writeFileAtomic_spec (written : Written host before record) (fault : Fault) :
    Triple (fun state => before.Same state ∧ state.file = before.file)
      (writeFileAtomic record fault) (Conserves host) fun result state =>
        Kept before record fault state ∧ (result = .ok () ↔ fault.error = none) := by
  refine Triple.through (fun _ => Kept before record fault) ?_ fun _ =>
    Triple.pure _ fun state kept => ⟨kept, by cases fault.error <;> simp⟩
  split
  next done =>
    refine Triple.through (fun _ => Kept before record fault) (Triple.move ?_ ?_) fun _ =>
      Triple.pure _ fun _ kept => kept
    · rintro state ⟨same, file⟩
      refine ⟨.inr (.inl ⟨record, rfl, written.decoded, written.fits, ?_⟩), .inl ⟨rfl, rfl⟩⟩
      exact fun held found => written.keeps held (file ▸ found)
    · rintro state ⟨same, file⟩
      exact ⟨⟨same.user, same.archive⟩, by simp [done]⟩
  next undone =>
    exact Triple.pure _ fun state held => ⟨held.1, by simpa [undone] using held.2⟩

variable {error : Option String} {state : State δ}

theorem read_present (file : state.file = some record) (decoded : decode host record = .ok ())
    (clean : error = none) : read host state error = .ok (some record) := by
  simp [UserMemoryTransaction.read, clean, file, decoded, bind, Except.bind]

theorem present_of_read (found : read host state error = .ok (some record)) :
    error = none ∧ state.file = some record := by
  cases error with
  | some text => cases found
  | none =>
      refine ⟨rfl, ?_⟩
      cases file : state.file with
      | none => simp [UserMemoryTransaction.read, file] at found
      | some other =>
          simp only [UserMemoryTransaction.read, file] at found
          obtain ⟨_, -, same⟩ := bind_ok found
          exact Except.ok.inj same

theorem absent_of_read (found : read host state error = .ok none) : state.file = none := by
  cases error with
  | some text => cases found
  | none =>
      cases file : state.file with
      | none => rfl
      | some other =>
          simp only [UserMemoryTransaction.read, file] at found
          obtain ⟨_, -, other⟩ := bind_ok found
          cases other

variable [DecidableEq δ]

/-- The check after a write. -/
theorem checkSaved_spec (error : Option String) (decoded : decode host record = .ok ())
    {pre : State δ → Prop} {allowed : State δ → State δ → Prop} :
    Triple pre (checkSaved host record error) allowed fun result state =>
      pre state ∧ (result = .ok () → state.file = some record) ∧
        (state.file = some record → (result = .ok () ↔ error = none)) := by
  refine Triple.read fun present => ?_
  split
  next text refused =>
    refine Triple.pure _ ?_
    rintro state ⟨rfl, held⟩
    refine ⟨held, nofun, fun file => ⟨nofun, fun clean => ?_⟩⟩
    rw [read_present file decoded clean] at refused
    cases refused
  next found readable =>
    refine Triple.ite (fun same => ?_) fun other => ?_
    · refine Triple.pure _ ?_
      rintro state ⟨rfl, held⟩
      obtain ⟨clean, file⟩ := present_of_read (same ▸ readable)
      exact ⟨held, fun _ => file, fun _ => ⟨fun _ => clean, fun _ => rfl⟩⟩
    · refine Triple.pure _ ?_
      rintro state ⟨rfl, held⟩
      refine ⟨held, nofun, fun file => ⟨nofun, fun clean => ?_⟩⟩
      rw [read_present file decoded clean] at readable
      cases readable
      exact absurd rfl other

variable (host) in
theorem save_spec (before : State δ) (record : TransactionRecord δ) (faults : SaveFaults)
    (keeps : ∀ held, before.file = some held →
      held.id = record.id ∧ (held.receipt = none ∨ held.receipt = record.receipt)) :
    Triple (· = before) (save host record faults) (Conserves host)
      (Saved host before record faults) := by
  unfold save
  refine Triple.ite (fun large => ?_) fun fits => ?_
  · refine Triple.pure _ ?_
    rintro state rfl
    exact ⟨.refl _, .inl rfl, nofun, fun _ _ fits => absurd fits (Nat.not_le.mpr large)⟩
  split
  next text refused =>
    refine Triple.pure _ ?_
    rintro state rfl
    refine ⟨.refl _, .inl rfl, nofun, fun _ decoded => ?_⟩
    rw [refused] at decoded
    cases decoded
  next decoded =>
    have written : Written host before record := ⟨decoded, Nat.not_lt.mp fits, keeps⟩
    refine Triple.through (fun _ state => before.Same state ∧ state.file = before.file) ?_
      fun _ => ?_
    · refine Triple.move ?_ ?_
      · rintro state rfl
        exact ⟨.inl rfl, .inl ⟨rfl, rfl⟩⟩
      · rintro state rfl
        exact ⟨⟨rfl, rfl⟩, rfl⟩
    refine Triple.bind (writeFileAtomic_spec written faults.write) fun result => ?_
    cases result with
    | ok _ =>
        refine (checkSaved_spec faults.check decoded).ending ?_
        rintro result state ⟨⟨kept, silent⟩, stored, exactly⟩
        refine ⟨kept.same, kept.either, stored, fun absent _ _ => ?_⟩
        have quiet := silent.mp rfl
        cases done : faults.write.done with
        | true => simp [SaveFaults.saves, done, quiet, exactly (kept.present done)]
        | false =>
            have file := (kept.missing done).trans absent
            refine ⟨fun ok => ?_, by simp [SaveFaults.saves, done]⟩
            simp [stored ok] at file
    | error text =>
        refine Triple.read fun present => ?_
        split
        next other unreadable =>
          refine Triple.pure _ ?_
          rintro state ⟨rfl, kept, failed⟩
          refine ⟨kept.same, kept.either, nofun, fun absent _ _ => ⟨nofun, fun saves => ?_⟩⟩
          simp only [SaveFaults.saves, Bool.and_eq_true, Bool.or_eq_true] at saves
          obtain ⟨⟨done, quiet | readable⟩, -⟩ := saves
          · cases failed.mpr (Option.isNone_iff_eq_none.mp quiet)
          · rw [read_present (kept.present done) decoded (Option.isNone_iff_eq_none.mp readable)]
              at unreadable
            cases unreadable
        next found readable =>
          refine Triple.ite (fun same => ?_) fun other => ?_
          · refine (checkSaved_spec faults.check decoded).ending ?_
            rintro result state ⟨⟨rfl, kept, failed⟩, stored, exactly⟩
            refine ⟨kept.same, kept.either, stored, fun absent _ _ => ?_⟩
            obtain ⟨clean, file⟩ := present_of_read (same ▸ readable)
            have done : faults.write.done = true := by
              by_contra undone
              have missing := kept.missing (Bool.eq_false_of_not_eq_true undone)
              rw [file, absent] at missing
              cases missing
            simp [SaveFaults.saves, done, clean, exactly file]
          · refine Triple.pure _ ?_
            rintro state ⟨rfl, kept, failed⟩
            refine ⟨kept.same, kept.either, nofun, fun absent _ _ => ⟨nofun, fun saves => ?_⟩⟩
            simp only [SaveFaults.saves, Bool.and_eq_true, Bool.or_eq_true] at saves
            obtain ⟨⟨done, quiet | clean⟩, -⟩ := saves
            · cases failed.mpr (Option.isNone_iff_eq_none.mp quiet)
            · rw [read_present (kept.present done) decoded (Option.isNone_iff_eq_none.mp clean)]
                at readable
              cases readable
              exact absurd rfl other

structure Departed (before : State δ) (receipt : Receipt) (result : Except String (Receipt × Bool))
    (after : State δ) : Prop where
  same : before.Same after
  cleared : ∀ found clear, result = .ok (found, clear) →
    found = receipt ∧ (clear = true → after.file = none)

variable (host) in
omit [DecidableEq δ] in
theorem settleAudit_spec (before : State δ) (record : TransactionRecord δ)
    (report : UserPreferenceCommitReport) (fault : Fault) :
    Triple (· = before) (settleAudit host record report fault) (Conserves host)
      fun result state => before.Same state ∧ state.file = before.file ∧
        (result = .ok true → ∀ reference, record.audit = some reference →
          (reference, report) ∈ state.settled) := by
  unfold settleAudit
  split
  next unowned =>
    refine Triple.pure _ ?_
    rintro state rfl
    exact ⟨.refl _, rfl, fun _ reference owned => by simp [unowned] at owned⟩
  next reference owned =>
    refine Triple.ite (fun _ => Triple.pure _ ?_) fun _ => ?_
    · rintro state rfl
      exact ⟨.refl _, rfl, nofun⟩
    split
    · refine Triple.pure _ ?_
      rintro state rfl
      exact ⟨.refl _, rfl, nofun⟩
    refine Triple.ite (fun _ => ?_) fun _ => ?_
    · refine Triple.through (fun _ state => before.Same state ∧
        state.file = before.file ∧ (reference, report) ∈ state.settled) (Triple.move ?_ ?_) fun _ =>
          Triple.pure _ ?_
      · rintro state rfl
        exact ⟨.inl rfl, .inl ⟨rfl, rfl⟩⟩
      · rintro state rfl
        exact ⟨⟨rfl, rfl⟩, rfl, by simp⟩
      · rintro state ⟨same, file, settled⟩
        refine ⟨same, file, fun _ other known => ?_⟩
        cases owned.symm.trans known
        exact settled
    · refine Triple.pure _ ?_
      rintro state rfl
      exact ⟨.refl _, rfl, nofun⟩

omit [DecidableEq δ] in
theorem unlink_spec (receipt : Receipt) (stored : before.file = some record) (fault : Fault) :
    Triple (fun state => before.Same state ∧ state.file = before.file ∧
        Retired state record receipt)
      (unlink fault) (Conserves host)
      fun result state => before.Same state ∧ (result = true → state.file = none) := by
  have removes : ∀ state : State δ, before.Same state ∧ state.file = before.file ∧
      Retired state record receipt → Conserves host state { state with file := none } :=
    fun state held => ⟨.inr (.inr ⟨rfl, record, receipt, held.2.1.trans stored, held.2.2⟩),
      .inl ⟨rfl, rfl⟩⟩
  refine Triple.read fun present => Triple.ite (fun gone => ?_) fun _ => ?_
  · refine Triple.pure _ ?_
    rintro state ⟨rfl, same, -, -⟩
    exact ⟨same, fun _ => Option.isNone_iff_eq_none.mp gone⟩
  split
  · refine Triple.through (fun _ state => before.Same state ∧
      state.file = none) (Triple.move ?_ ?_) fun _ => Triple.pure _ ?_
    · rintro state ⟨rfl, held⟩
      exact removes state held
    · rintro state ⟨rfl, same, -, -⟩
      exact ⟨⟨same.user, same.archive⟩, rfl⟩
    · rintro state ⟨same, gone⟩
      exact ⟨same, fun _ => gone⟩
  · refine Triple.through (fun _ state => before.Same state) ?_ fun _ => Triple.pure _ ?_
    · split
      · refine Triple.through (fun _ state => before.Same state) (Triple.move ?_ ?_)
          fun _ => Triple.pure _ fun _ => id
        · rintro state ⟨rfl, held⟩
          exact removes state held
        · rintro state ⟨rfl, same, -, -⟩
          exact ⟨same.user, same.archive⟩
      · refine Triple.pure _ ?_
        rintro state ⟨rfl, same, -, -⟩
        exact same
    · exact fun state same => ⟨same, nofun⟩

variable (host) in
omit [DecidableEq δ] in
theorem retire_spec {receipt : Receipt} (current : Receipt) (stored : before.file = some record)
    (recorded : record.receipt = some receipt)
    (complete : current.state = .complete → before.Holds record (·.after))
    (none_ : current.state = .none → before.Holds record (·.before)) (faults : SettleFaults) :
    Triple (· = before) (retire host record receipt current faults) (Conserves host)
      (Departed before receipt) := by
  refine Triple.bind (settleAudit_spec host before record receipt.report faults.owner)
    fun result => ?_
  cases result with
  | error text =>
      refine Triple.pure _ ?_
      rintro state ⟨same, -, -⟩
      exact ⟨same, nofun⟩
  | ok acknowledged =>
      refine Triple.ite (fun clear => ?_) fun _ => ?_
      · refine Triple.bind ((unlink_spec receipt stored faults.unlink).starting ?_) fun removed => ?_
        · rintro state ⟨same, file, settled⟩
          refine ⟨same, file, recorded, ?_, settled (by rw [clear.1])⟩
          rcases clear.2.1 with finished | untouched
          · exact .inl ⟨finished, same.holds (complete (clear.2.2.trans finished))⟩
          · exact .inr ⟨untouched, same.holds (none_ (clear.2.2.trans untouched))⟩
        · refine Triple.ite (fun gone => ?_) fun _ => ?_
          · refine Triple.through (fun _ state => before.Same state ∧
              state.file = none) (Triple.move ?_ ?_) fun _ => Triple.pure _ ?_
            · exact fun state _ => ⟨.inl rfl, .inl ⟨rfl, rfl⟩⟩
            · exact fun state held => ⟨⟨held.1.user, held.1.archive⟩, held.2 gone⟩
            · rintro state ⟨same, gone⟩
              refine ⟨same, fun found clear returned => ?_⟩
              cases returned
              exact ⟨rfl, fun _ => gone⟩
          · refine Triple.pure _ ?_
            rintro state ⟨same, -⟩
            refine ⟨same, fun found clear returned => ?_⟩
            cases returned
            exact ⟨rfl, nofun⟩
      · refine Triple.pure _ ?_
        rintro state ⟨same, -, -⟩
        refine ⟨same, fun found clear returned => ?_⟩
        cases returned
        exact ⟨rfl, nofun⟩

structure Settled (host : Host δ) (before : State δ) (record : TransactionRecord δ)
    (error : Option String) (unstarted : Bool) (faults : SettleFaults)
    (settled : TransactionRecord δ × Except String (Receipt × Bool)) (after : State δ) : Prop where
  same : before.Same after
  receipt : ∃ receipt, settled.1.receipt = some receipt ∧
    (∀ found clear, settled.2 = .ok (found, clear) →
      found = receipt ∧ (clear = true → after.file = none)) ∧
    (record.receipt = none →
      (if unstarted then unstartedReceipt host record
        else assess host before record error faults.assess) = .ok receipt)

variable (host) in
theorem settle_spec (before : State δ) (record : TransactionRecord δ) (error : Option String)
    (unstarted : Bool) (faults : SettleFaults)
    (fresh : record.receipt = none → ∀ held, before.file = some held →
      held.id = record.id ∧ held.receipt = none)
    (stored : record.receipt ≠ none → before.file = some record)
    (begun : unstarted = true → record.attempted = [] ∧ record.completed = []) :
    Triple (· = before) (settle host record error unstarted faults) (Conserves host)
      (Settled host before record error unstarted faults) := by
  refine Triple.readKnown ?_
  obtain ⟨current, assessed⟩ := assess_total host before record error faults.assess
  have exactly := assess_spec host assessed
  rw [assessed]
  cases recorded : record.receipt with
  | some receipt =>
      refine (retire_spec host current (stored (by simp [recorded])) recorded
        (fun all => (exactly.1 all).holds) exactly.2 faults).bind fun result => Triple.pure _ ?_
      intro state departed
      exact ⟨departed.same, receipt, recorded, departed.cleared, by simp [recorded]⟩
  | none =>
      obtain ⟨receipt, made⟩ : ∃ receipt, (if unstarted then unstartedReceipt host record
          else .ok current) = .ok receipt := by
        cases started : unstarted with
        | false => exact ⟨current, rfl⟩
        | true =>
            obtain ⟨receipt, made, -⟩ := unstartedReceipt_spec host (begun started).1
              (begun started).2
            exact ⟨receipt, made⟩
      simp only [made]
      have same : (if unstarted then unstartedReceipt host record
          else assess host before record error faults.assess) = .ok receipt := by
        rw [assessed]
        exact made
      obtain ⟨stamped, stamp⟩ : ∃ stamped : TransactionRecord δ,
          stamped = { record with receipt := some receipt } := ⟨_, rfl⟩
      rw [← stamp]
      have known : stamped.receipt = some receipt := by rw [stamp]
      have keeps : ∀ held, before.file = some held →
          held.id = stamped.id ∧ (held.receipt = none ∨ held.receipt = stamped.receipt) := by
        intro held found
        obtain ⟨same, none_⟩ := fresh recorded held found
        exact ⟨by rw [stamp]; exact same, .inl none_⟩
      have kept : ∀ {state : State δ} {side : StoredFile → Option String},
          state.Holds record side → state.Holds stamped side := by
        intro state side holds
        rw [stamp]
        exact ⟨holds.recognized, holds.user, holds.files⟩
      have saves := save_spec host before stamped faults.save keeps
      generalize save host stamped faults.save = saving at saves ⊢
      refine saves.bind fun result => ?_
      cases result with
      | error text =>
          refine Triple.pure _ ?_
          intro last saved
          exact ⟨saved.same, receipt, known, nofun, fun _ => same⟩
      | ok _ =>
          refine Triple.each fun middle saved => ?_
          have departs := retire_spec host current (saved.stored rfl) known
            (fun all => saved.same.holds (kept (exactly.1 all).holds))
            (fun all => saved.same.holds (kept (exactly.2 all))) faults
          refine departs.bind fun result => Triple.pure (stamped, result) ?_
          intro last departed
          exact ⟨saved.same.trans departed.same, receipt, known, departed.cleared, fun _ => same⟩

/-- A later form of an unfinished record. -/
structure Continues (first second : TransactionRecord δ) : Prop where
  id : second.id = first.id
  user : second.user = first.user
  files : second.files = first.files
  receipt : second.receipt = none

/-- An unfinished form of the record is on disk. -/
def Pending (record : TransactionRecord δ) (state : State δ) : Prop :=
  ∃ held, state.file = some held ∧ held.id = record.id ∧ held.receipt = none

variable {original : TransactionRecord δ}

variable (host) in
theorem mark_spec (continues : Continues original record) (name : String) (complete : Bool)
    (faults : SaveFaults) :
    Triple (Pending original) (mark host record name complete faults) (Conserves host)
      fun result state => Continues original result.1 ∧ Pending original state := by
  unfold mark
  refine Triple.ite (fun _ => Triple.pure _ fun state pending => ⟨continues, pending⟩) fun _ => ?_
  obtain ⟨marked, marks, next⟩ : ∃ marked : TransactionRecord δ, Continues original marked ∧
      marked = if complete then { record with completed := record.completed ++ [name] }
        else { record with attempted := record.attempted ++ [name] } := by
    refine ⟨_, ?_, rfl⟩
    cases complete
    · exact ⟨continues.id, continues.user, continues.files, continues.receipt⟩
    · exact ⟨continues.id, continues.user, continues.files, continues.receipt⟩
  simp only [← next]
  refine Triple.each ?_
  rintro before ⟨held, file, same, unfinished⟩
  have saves := save_spec host before marked faults fun other found => by
    cases file.symm.trans found
    exact ⟨same.trans marks.id.symm, .inl unfinished⟩
  generalize save host marked faults = saving at saves ⊢
  refine saves.bind fun result => Triple.pure (marked, result) ?_
  intro state saved
  refine ⟨marks, ?_⟩
  rcases saved.file with kept | written
  · exact ⟨held, kept.trans file, same, unfinished⟩
  · exact ⟨marked, written, marks.id, marks.receipt⟩

variable (host) in
theorem runScript_spec (script : Script) (continues : Continues original record) :
    Triple (Pending original) (runScript host script record) (Conserves host)
      fun result state => Continues original result.1 ∧ Pending original state := by
  induction script generalizing record with
  | returns warning => exact Triple.pure _ fun state pending => ⟨continues, pending⟩
  | throws error => exact Triple.pure _ fun state pending => ⟨continues, pending⟩
  | mark name complete faults saved failed savedIh failedIh =>
      have marks := mark_spec host continues name complete faults
      unfold runScript
      generalize mark host record name complete faults = marking at marks ⊢
      refine marks.bind fun result => ?_
      obtain ⟨marked, outcome⟩ := result
      refine Triple.each fun state held => ?_
      cases outcome with
      | ok _ => exact (savedIh held.1).known held.2
      | error text => exact (failedIh text held.1).known held.2
  | store change rest ih =>
      refine Triple.through (fun _ => Pending original) (Triple.move ?_ ?_) fun _ => ih continues
      · rintro state ⟨held, file, -, unfinished⟩
        refine ⟨.inl ?_, .inr ⟨?_, held, file, unfinished⟩⟩
        · cases change <;> rfl
        · cases change <;> rfl
      · rintro state ⟨held, file, rest⟩
        refine ⟨held, ?_, rest⟩
        cases change <;> exact file

structure Admitted (host : Host δ) (before : State δ) (record : TransactionRecord δ) : Prop where
  absent : before.file = none
  attempted : record.attempted = []
  completed : record.completed = []
  unfinished : record.receipt = none
  decoded : decode host record = .ok ()
  fits : record.bytes host ≤ MAX_RECORD_BYTES

structure Executed (before : State δ) (record : TransactionRecord δ) (faults : SaveFaults)
    (performed : Performed δ) (after : State δ) : Prop where
  continues : Continues record performed.record
  pending : ∀ held, after.file = some held →
    held.id = performed.record.id ∧ held.receipt = none
  started : performed.started = faults.saves
  unstarted : performed.started = false → performed.record = record ∧ before.Same after

variable (host before record) in
theorem perform_spec (request : RunRequest δ) (admitted : Admitted host before record) :
    Triple (· = before) (perform host record request) (Conserves host)
      (Executed before record request.faults.initial) := by
  obtain ⟨absent, -, -, unfinished, decoded, fits⟩ := admitted
  have saves := save_spec host before record request.faults.initial fun held found => by
    rw [absent] at found
    cases found
  have continues : Continues record record := ⟨rfl, rfl, rfl, unfinished⟩
  unfold perform
  generalize save host record request.faults.initial = saving at saves ⊢
  refine saves.bind fun result => ?_
  cases result with
  | error text =>
      refine Triple.pure _ ?_
      intro state saved
      have unsaved : request.faults.initial.saves = false := by
        rw [← Bool.not_eq_true, ← saved.succeeds absent decoded fits]
        exact nofun
      refine ⟨continues, ?_, unsaved.symm, fun _ => ⟨rfl, saved.same⟩⟩
      intro held found
      rcases saved.file with kept | written
      · rw [kept, absent] at found
        cases found
      · cases written.symm.trans found
        exact ⟨rfl, unfinished⟩
  | ok _ =>
      refine Triple.through (fun (result : TransactionRecord δ × Except String (Option String))
        state => (Continues record result.1 ∧ Pending record state) ∧
          request.faults.initial.saves = true) ?_ fun result => ?_
      · refine Triple.each fun state saved => ?_
        have success := (saved.succeeds absent decoded fits).mp rfl
        have pending : Pending record state := ⟨record, saved.stored rfl, rfl, unfinished⟩
        exact ((runScript_spec host request.execute continues).known pending).ending
          fun _ _ held => ⟨held, success⟩
      · obtain ⟨last, outcome⟩ := result
        have settled : ∀ (warning failure : Option String) (state : State δ),
            (Continues record last ∧ Pending record state) ∧
              request.faults.initial.saves = true →
            Executed before record request.faults.initial
              { record := last, started := true, warning, failure } state := by
          rintro warning failure state ⟨⟨continued, held, file, same, none_⟩, success⟩
          refine ⟨continued, ?_, success.symm, nofun⟩
          intro other found
          cases file.symm.trans found
          exact ⟨same.trans continued.id.symm, none_⟩
        cases outcome with
        | ok warning => exact Triple.pure _ (settled warning none)
        | error text => exact Triple.pure _ (settled none (some text))

omit [DecidableEq δ] in
theorem bytes_le_envelope (attempted : record.attempted = []) (completed : record.completed = [])
    (unfinished : record.receipt = none) :
    record.bytes host ≤ (record.envelope host).bytes host := by
  have empty : ∀ texts : List String, (Json.strings []).bytes ≤ (Json.strings texts).bytes := by
    intro texts
    simp only [Json.strings, Json.bytes, List.map_nil, Json.elementsBytes]
    omega
  obtain ⟨steps, receipt, longest⟩ : ∃ steps receipt, record.envelope host =
      { record with attempted := steps, completed := steps, receipt := some receipt } :=
    ⟨_, _, rfl⟩
  rw [longest]
  have both := empty steps
  simp only [TransactionRecord.bytes, TransactionRecord.toJson, Json.bytes, Json.fieldsBytes_append,
    attempted, completed, unfinished, Option.map_none, Option.map_some, Json.optionalField,
    Json.fieldsBytes]
  omega

omit [DecidableEq δ] in
theorem fits_of_capacity {value : Unit} (capacity : validateCapacity host record = .ok value) :
    (record.envelope host).bytes host ≤ MAX_RECORD_BYTES := by
  unfold validateCapacity at capacity
  generalize (record.envelope host).bytes host = bytes at capacity ⊢
  split at capacity
  · cases capacity
  next fits => exact Nat.not_lt.mp fits

omit [DecidableEq δ] in
theorem admission_spec {request : RunRequest δ}
    (admitted : admission host before request = .ok record) : Admitted host before record := by
  unfold admission at admitted
  split at admitted
  · cases admitted
  obtain ⟨found, present, rest⟩ := bind_ok admitted
  cases found with
  | some held => cases rest
  | none =>
      obtain ⟨files, -, rest⟩ := bind_ok rest
      obtain ⟨_, decoded, rest⟩ := bind_ok rest
      obtain ⟨_, capacity, made⟩ := bind_ok rest
      cases made
      exact ⟨absent_of_read present, rfl, rfl, rfl, decoded,
        (bytes_le_envelope rfl rfl rfl).trans (fits_of_capacity capacity)⟩

/-- What a run of an admitted plan comes to. -/
structure Concluded (before : State δ) (record : TransactionRecord δ) (request : RunRequest δ)
    (result : Except RunError (Option String)) (after : State δ) : Prop where
  read : (request.faults.initial.saves = true ∨ ¬record.Unchanged) →
    ∀ warning, result = .ok warning → after.ReadBack record request.faults.settle.assess
  credited : request.faults.initial.saves = false → record.Unchanged →
    before.Same after ∧ ∃ warning, result = .ok warning

omit [DecidableEq δ] in
theorem unsettled_ok_iff (state : State δ) (performed : Performed δ) {receipt : Receipt}
    (recorded : record.receipt = some receipt) (text : String) (faults : AssessFaults) :
    (∃ warning, unsettled host state performed record text faults = .ok warning) ↔
      receipt.state = .complete := by
  simp only [unsettled, recorded]
  cases receipt.state <;> simp

omit [DecidableEq δ] in
theorem concluded_ok_iff (performed : Performed δ) (receipt : Receipt) (clear : Bool) :
    (∃ warning, concluded host performed receipt clear = .ok warning) ↔
      receipt.state = .complete := by
  simp only [concluded]
  cases receipt.state <;> simp

omit [DecidableEq δ] in
theorem ending_ok_iff {middle after : State δ} {performed : Performed δ} {unstarted : Bool}
    {faults : SettleFaults} {last : TransactionRecord δ}
    {outcome : Except String (Receipt × Bool)}
    (settled : Settled host middle performed.record error unstarted faults (last, outcome) after)
    (unfinished : performed.record.receipt = none) (assess_ : AssessFaults) :
    ∃ receipt, (if unstarted then unstartedReceipt host performed.record
        else assess host middle performed.record error faults.assess) = .ok receipt ∧
      ((∃ warning, (match outcome with
        | .error text => unsettled host after performed last text assess_
        | .ok (receipt, clear) => concluded host performed receipt clear) = .ok warning) ↔
          receipt.state = .complete) := by
  obtain ⟨receipt, recorded, returned, made⟩ := settled.receipt
  refine ⟨receipt, made unfinished, ?_⟩
  cases outcome with
  | error text => exact unsettled_ok_iff after performed recorded text assess_
  | ok pair =>
      obtain ⟨rfl, -⟩ := returned pair.1 pair.2 rfl
      exact concluded_ok_iff performed pair.1 pair.2

variable (host before record) in
theorem execute_spec (request : RunRequest δ) (admitted : Admitted host before record) :
    Triple (· = before) (execute host record request) (Conserves host)
      (Concluded before record request) := by
  have performs := perform_spec host before record request admitted
  unfold execute
  generalize perform host record request = performing at performs ⊢
  refine performs.bind fun performed => Triple.each fun middle executed => ?_
  have settles := settle_spec host middle performed.record performed.failure (!performed.started)
    request.faults.settle (fun _ => executed.pending)
    (fun finished => absurd executed.continues.receipt finished) (fun unstarted => by
      obtain ⟨same, -⟩ := executed.unstarted (by simpa using unstarted)
      rw [same]
      exact ⟨admitted.attempted, admitted.completed⟩)
  generalize settle host performed.record performed.failure (!performed.started)
    request.faults.settle = settling at settles ⊢
  refine settles.bind fun settled => ?_
  obtain ⟨last, outcome⟩ := settled
  refine Triple.read fun after => Triple.pure _ ?_
  rintro state ⟨rfl, settled_⟩
  obtain ⟨receipt, made, ending⟩ := ending_ok_iff settled_ executed.continues.receipt
    request.faults.assess
  refine ⟨fun sound warning returned => ?_, fun unsaved unchanged => ?_⟩
  · have complete := ending.mp ⟨warning, returned⟩
    cases started : performed.started with
    | true =>
        rw [started] at made
        have read := (assess_spec host made).1 complete
        have holds := settled_.same.holds read.holds
        refine ⟨⟨holds.recognized, ?_, ?_⟩, ?_⟩
        · rw [← executed.continues.user]
          exact holds.user
        · rw [← executed.continues.files]
          exact holds.files
        · rw [← executed.continues.files]
          exact read.read
    | false =>
        obtain ⟨same, -⟩ := executed.unstarted started
        rw [started, same] at made
        obtain ⟨other, found, all⟩ := unstartedReceipt_spec host admitted.attempted
          admitted.completed
        cases found.symm.trans made
        rcases sound with saved | changed
        · rw [executed.started, saved] at started
          cases started
        · exact absurd (all.mp complete) changed
  · have unstarted := executed.started.trans unsaved
    obtain ⟨same, stored⟩ := executed.unstarted unstarted
    rw [unstarted, same] at made
    obtain ⟨other, found, all⟩ := unstartedReceipt_spec host admitted.attempted admitted.completed
    cases found.symm.trans made
    exact ⟨stored.trans settled_.same, ending.mpr (all.mpr unchanged)⟩

theorem run_admitted {request : RunRequest δ}
    (admitted : admission host before request = .ok record) :
    run host request before = execute host record request before := by
  simp only [run, bind, Operation.read, Course.andThen, admitted]

theorem run_refused {request : RunRequest δ} {text : String}
    (refused : admission host before request = .error text) :
    run host request before = .returned (.error (.plain text)) := by
  simp only [run, bind, Operation.read, Course.andThen, refused]
  rfl

variable (host) in
/-- A run of a plan that is not admitted throws at once. -/
theorem run_spec (request : RunRequest δ) (before : State δ) :
    (∃ text, admission host before request = .error text ∧
      run host request before = .returned (.error (.plain text))) ∨
    ∃ record, admission host before request = .ok record ∧
      (run host request before).Meets (Conserves host) (Concluded before record request)
        before := by
  cases admitted : admission host before request with
  | error text => exact .inl ⟨text, rfl, run_refused admitted⟩
  | ok record =>
      refine .inr ⟨record, rfl, ?_⟩
      have spec : Triple (· = before) (execute host record request) (Conserves host)
          (Concluded before record request) :=
        @execute_spec δ host before record _ request (admission_spec admitted)
      rw [run_admitted admitted]
      generalize execute host record request = executing at spec ⊢
      exact spec.meets

variable (host) in
omit [DecidableEq δ] in
theorem dropRetained_spec (before : State δ) (found : Option (TransactionRecord δ))
    (fault : Fault) :
    Triple (· = before) (dropRetained host found fault) (Conserves host)
      fun _ state => state.file = before.file := by
  refine Triple.readKnown ?_
  split
  · refine Triple.pure _ ?_
    rintro state rfl
    rfl
  next retained receipt kept =>
    refine Triple.ite (fun _ => ?_) fun _ => ?_
    · refine (settleAudit_spec host before retained receipt.report fault).bind fun result => ?_
      split
      · exact Triple.pure _ fun state held => held.2.1
      · refine Triple.through (fun _ state => state.file = before.file) ?_ fun _ =>
          Triple.pure _ fun state file => file
        refine Triple.moves (fun state => state.file = before.file) (fun state held => held.2.1)
          ?_ fun state file => file
        intro change member state file
        split at member
        · cases List.mem_singleton.mp member
          exact ⟨⟨.inl rfl, .inl ⟨rfl, rfl⟩⟩, file⟩
        · cases member
    · refine Triple.pure _ ?_
      rintro state rfl
      rfl

variable (host) in
theorem recordToSettle_spec (before : State δ) (found : Option (TransactionRecord δ))
    (present : before.file = found) (faults : SaveFaults) :
    Triple (· = before) (recordToSettle host found faults) (Conserves host)
      fun result state => ∀ record, result = .ok record → state.file = record := by
  cases found with
  | some record =>
      refine Triple.pure _ ?_
      rintro state rfl other same
      cases same
      exact present
  | none =>
      refine Triple.readKnown ?_
      split
      · refine Triple.pure _ ?_
        rintro state rfl other same
        cases same
        exact present
      next retained kept =>
        have saves := save_spec host before retained faults fun held found => by
          rw [present] at found
          cases found
        generalize save host retained faults = saving at saves ⊢
        refine saves.bind fun result => ?_
        cases result with
        | error text =>
            refine Triple.pure _ ?_
            intro state saved other same
            cases same
        | ok _ =>
            refine Triple.pure _ ?_
            intro state saved other same
            cases same
            exact saved.stored rfl

variable (host) in
theorem mergeRetained_spec (before : State δ) (record : TransactionRecord δ)
    (present : before.file = some record) (faults : SaveFaults) :
    Triple (· = before) (mergeRetained host record faults) (Conserves host)
      fun result state => ∀ merged, result = .ok merged → state.file = some merged := by
  have keeps : ∀ {result : Except String (TransactionRecord δ)},
      (∀ merged, result = .ok merged → merged = record) →
      Triple (· = before) (pure result : Operation (State δ) _) (Conserves host)
        fun result state => ∀ merged, result = .ok merged → state.file = some merged := by
    intro result same
    refine Triple.pure _ ?_
    rintro state rfl merged returned
    rw [same merged returned]
    exact present
  refine Triple.readKnown ?_
  split
  · exact keeps fun merged same => (Except.ok.inj same).symm
  next retained kept =>
    refine Triple.ite (fun _ => keeps fun merged => nofun) fun same => ?_
    split
    · exact keeps fun merged same => (Except.ok.inj same).symm
    · refine Triple.ite (fun _ => keeps fun merged same => (Except.ok.inj same).symm)
        fun _ => keeps fun merged => nofun
    next receipt unsettled recorded =>
      have saves := save_spec host before retained faults fun held found => by
        cases present.symm.trans found
        exact ⟨(not_not.mp same).symm, .inl recorded⟩
      generalize save host retained faults = saving at saves ⊢
      refine saves.bind fun result => ?_
      cases result with
      | error text =>
          refine Triple.pure _ ?_
          intro state saved merged returned
          cases returned
      | ok _ =>
          refine Triple.pure _ ?_
          intro state saved merged returned
          cases returned
          exact saved.stored rfl

variable (host) in
/-- A recovery that reports a clear store leaves no transaction file. -/
theorem recover_spec (before : State δ) (faults : RecoverFaults) :
    Triple (· = before) (recover host faults) (Conserves host)
      fun recovery state => recovery.clear = true → state.file = none := by
  have inspected : ∀ (text : String) {pre : State δ → Prop},
      Triple pre (pure (requiresInspection host text) : Operation (State δ) _) (Conserves host)
        fun recovery state => recovery.clear = true → state.file = none :=
    fun text pre => Triple.pure _ fun state _ => nofun
  refine Triple.readKnown ?_
  cases present : read host before faults.read with
  | error text => exact inspected text
  | ok found =>
      have file : before.file = found := by
        cases found with
        | none => exact absent_of_read present
        | some record => exact (present_of_read present).2
      refine (dropRetained_spec host before found faults.owner).bind fun result => ?_
      cases result with
      | error text => exact inspected text
      | ok _ =>
          refine Triple.each fun middle kept => ?_
          refine (recordToSettle_spec host middle found (kept.trans file) faults.restore).bind
            fun result => ?_
          cases result with
          | error text => exact inspected text
          | ok record =>
              cases record with
              | none => exact Triple.pure _ fun state absent _ => absent none rfl
              | some record =>
                  refine Triple.each fun middle stored => ?_
                  refine (mergeRetained_spec host middle record (stored _ rfl) faults.merge).bind
                    fun result => ?_
                  cases result with
                  | error text => exact inspected text
                  | ok record =>
                      refine Triple.each fun middle stored => ?_
                      have settles := settle_spec host middle record none false faults.settle
                        (fun unfinished held found => by
                          cases (stored _ rfl).symm.trans found
                          exact ⟨rfl, unfinished⟩) (fun _ => stored _ rfl) nofun
                      dsimp only
                      generalize settle host record none false faults.settle = settling
                        at settles ⊢
                      refine settles.bind fun settled => ?_
                      obtain ⟨last, outcome⟩ := settled
                      cases outcome with
                      | error text => exact inspected text
                      | ok pair =>
                          obtain ⟨receipt, clear⟩ := pair
                          refine Triple.ite (fun cleared => Triple.pure _ ?_) fun _ =>
                            Triple.pure _ fun _ _ => nofun
                          intro state settled _
                          obtain ⟨other, -, returned, -⟩ := settled.receipt
                          exact (returned receipt clear rfl).2 cleared

end UserMemoryTransaction

end PiAdaptative.UserMemory
