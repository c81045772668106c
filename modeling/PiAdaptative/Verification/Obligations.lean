import PiAdaptative.Verification.Tracker
import PiAdaptative.Verification.Snapshots

/-!
# What a record changes

One lemma for each operation of the tracker says what it does to every table.  From them follow the
consistency of the tables and the bound on the active obligations, which hold after every record.
-/

namespace PiAdaptative.Verification

theorem isVerificationId_overflow : isVerificationId VERIFICATION_OVERFLOW_ID = false := by decide

theorem isSnapshotVerificationId_overflow :
    isSnapshotVerificationId VERIFICATION_OVERFLOW_ID = true := by decide

theorem isSnapshotVerificationId_of {id : String} (named : isVerificationId id = true) :
    isSnapshotVerificationId id = true := by
  simp [isSnapshotVerificationId, named]

structure VerificationRecord.WellFormed (record : VerificationRecord) : Prop where
  named : isSnapshotVerificationId record.id = true
  setup : record.outcome = some .setupFailed → isVerificationId record.id = true
  grouped : ∀ group, record.repairGroup = some group → isVerificationId group = true
  repairs : ∀ id, record.repairOf = some id → isVerificationId id = true
  command : ∀ text, record.command = some text →
    boundedDisplayText (some (.str text)) MAX_VERIFICATION_COMMAND_LENGTH = some text
  cwd : ∀ text, record.cwd = some text →
    boundedDisplayText (some (.str text)) MAX_VERIFICATION_CWD_LENGTH = some text

theorem readOptionalId_eq_some {isId : String → Bool} {value : Option Json} {found : Option String}
    (read : readOptionalId isId value = some found) : ∀ id, found = some id → isId id = true := by
  rintro id rfl
  unfold readOptionalId at read
  split at read
  · cases read
  · obtain ⟨text, named, same⟩ := Option.map_eq_some_iff.mp read
    cases same
    exact readId_eq_some named

variable {record : VerificationRecord}

theorem wellFormed_of_read {value : Option Json}
    (read : readVerificationRecord value = some record) :
    record.WellFormed ∧ isVerificationId record.id = true := by
  unfold readVerificationRecord at read
  simp only [Option.bind_eq_bind, Option.bind_eq_some_iff, Option.pure_def,
    Option.some.injEq] at read
  obtain ⟨candidate, -, -, -, id, named, status, -, originTaskId, -, outcome, -, -, -, evidence, -,
    repairGroup, grouped, repairOf, repairs, rfl⟩ := read
  have plain := readId_eq_some named
  refine ⟨⟨isSnapshotVerificationId_of plain, fun _ => plain, readOptionalId_eq_some grouped,
    readOptionalId_eq_some repairs, ?_, ?_⟩, plain⟩
  · exact fun text shown => boundedDisplayText_idem (by decide) shown
  · exact fun text shown => boundedDisplayText_idem (by decide) shown

variable {details : Option Json}

theorem wellFormed_of_readTool (read : readToolVerificationRecord details = some record) :
    record.WellFormed ∧ isVerificationId record.id = true := by
  unfold readToolVerificationRecord at read
  simp only [Option.bind_eq_bind, Option.bind_eq_some_iff] at read
  obtain ⟨object, -, found⟩ := read
  exact wellFormed_of_read found

variable {records : List VerificationRecord}

theorem wellFormed_of_mapM {values : List Json}
    (read : values.mapM (fun value => readVerificationRecord (some value)) = some records) :
    ∀ record ∈ records, record.WellFormed ∧ isVerificationId record.id = true := by
  induction values generalizing records with
  | nil =>
      cases read
      exact fun _ member => nomatch member
  | cons value values ih =>
      simp only [List.mapM_cons, Option.bind_eq_bind, Option.bind_eq_some_iff, Option.pure_def,
        Option.some.injEq] at read
      obtain ⟨first, found, rest, later, rfl⟩ := read
      intro record member
      rcases List.mem_cons.mp member with rfl | inside
      · exact wellFormed_of_read found
      · exact ih later record inside

theorem wellFormed_of_readEvents (read : readVerificationEvents details = some (.records records)) :
    ∀ record ∈ records, record.WellFormed ∧ isVerificationId record.id = true := by
  unfold readVerificationEvents at read
  simp only [Option.bind_eq_bind, Option.bind_eq_some_iff] at read
  obtain ⟨object, -, found⟩ := read
  split at found
  next values _ =>
    split at found
    · cases found
    · simp only [Option.bind_eq_some_iff, Option.pure_def, Option.some.injEq] at found
      obtain ⟨read, all, same⟩ := found
      cases same
      exact wellFormed_of_mapM all
  · cases found

theorem mem_of_readDismissal {ids : List String}
    (read : readVerificationDismissal details = some ids) :
    ∀ id ∈ ids, isSnapshotVerificationId id = true := by
  unfold readVerificationDismissal at read
  simp only [Option.bind_eq_bind, Option.bind_eq_some_iff] at read
  obtain ⟨object, -, candidate, -, -, -, raw, -, canonical⟩ := read
  obtain ⟨rfl, -, valid, -⟩ := boundedCanonicalIds_eq_some.mp canonical
  exact fun id member => valid id ((sortedTexts_perm raw).mem_iff.mp member)

/-- Every record that a message applies is well formed. -/
theorem applications_wellFormed (tracker : Tracker) (message : TranscriptMessage) (revision : Nat) :
    ∀ application ∈ tracker.applications message revision, application.record.WellFormed := by
  intro application member
  unfold Tracker.applications at member
  split at member
  next => exact nomatch member
  next customType details =>
    split at member
    · obtain ⟨id, inside, rfl⟩ := List.mem_map.mp member
      cases dismissed : readVerificationDismissal details with
      | none =>
          rw [dismissed] at inside
          exact nomatch inside
      | some ids =>
          rw [dismissed] at inside
          have named := mem_of_readDismissal dismissed id inside
          exact ⟨named, fun impossible => (nomatch impossible), fun _ impossible => (nomatch impossible),
            fun _ impossible => (nomatch impossible), fun _ impossible => (nomatch impossible),
            fun _ impossible => (nomatch impossible)⟩
    · split at member
      · exact nomatch member
      · obtain rfl := List.mem_singleton.mp member
        exact ⟨isSnapshotVerificationId_overflow, fun impossible => (nomatch impossible),
          fun _ impossible => (nomatch impossible), fun _ impossible => (nomatch impossible),
          fun _ impossible => (nomatch impossible), fun _ impossible => (nomatch impossible)⟩
      next records read =>
        obtain ⟨record, inside, rfl⟩ := List.mem_map.mp member
        exact (wellFormed_of_readEvents read record inside).1
  next isError details =>
    obtain ⟨record, inside, rfl⟩ := List.mem_map.mp member
    exact (wellFormed_of_readTool (Option.mem_toList.mp inside)).1
  next => exact nomatch member

variable {activeIds : OrderedMap String Unit}

theorem has_of_has_rememberFailedVerification {bound : Option Nat} {id other : String}
    (active : (rememberFailedVerification bound activeIds id).has other = true) :
    activeIds.has other = true ∨ other = id ∨ other = VERIFICATION_OVERFLOW_ID := by
  unfold rememberFailedVerification evictOldest at active
  split at active
  · simp only [OrderedMap.has_set, OrderedMap.has_erase, Bool.or_eq_true, decide_eq_true_eq,
      Bool.and_eq_true] at active
    rcases active with same | ⟨-, before⟩
    · exact Or.inr (Or.inl same)
    · exact Or.inl before
  · split at active
    · simp only [OrderedMap.has_set, Bool.or_eq_true, decide_eq_true_eq] at active
      rcases active with same | before
      · exact Or.inr (Or.inl same)
      · exact Or.inl before
    · simp only [OrderedMap.has_set, Bool.or_eq_true, decide_eq_true_eq] at active
      rcases active with same | before
      · split at same
        · exact Or.inr (Or.inl same)
        · exact Or.inr (Or.inr same)
      · split at before
        · simp only [OrderedMap.has_erase, Bool.and_eq_true] at before
          exact Or.inl before.2
        · exact Or.inl before

theorem oldestObligation_isSome (many : 1 < activeIds.size) :
    ∃ oldest, oldestObligation activeIds = some oldest ∧ activeIds.has oldest = true ∧
      oldest ≠ VERIFICATION_OVERFLOW_ID := by
  cases found : oldestObligation activeIds with
  | some oldest =>
      have member := List.mem_of_find?_eq_some found
      have named := List.find?_some found
      exact ⟨oldest, rfl, OrderedMap.mem_keys.mp member, by simpa using named⟩
  | none =>
      unfold oldestObligation at found
      rw [List.find?_eq_none] at found
      have alike : ∀ id ∈ activeIds.keys, id = VERIFICATION_OVERFLOW_ID := by
        intro id member
        simpa using found id member
      have length : activeIds.keys.length = activeIds.size := by
        simp [OrderedMap.keys, OrderedMap.size]
      have distinct := activeIds.keys_nodup
      obtain ⟨first, second, rest, shape⟩ : ∃ first second rest,
          activeIds.keys = first :: second :: rest := by
        rcases shape : activeIds.keys with _ | ⟨first, _ | ⟨second, rest⟩⟩
        · simp [shape] at length
          omega
        · simp [shape] at length
          omega
        · exact ⟨first, second, rest, rfl⟩
      rw [shape] at alike distinct
      have same := (alike first (by simp)).trans (alike second (by simp)).symm
      simp [same] at distinct

theorem size_rememberFailedVerification (id : String)
    (few : activeIds.size ≤ MAX_ACTIVE_VERIFICATION_OBLIGATIONS) :
    (rememberFailedVerification trackerBound activeIds id).size ≤
      MAX_ACTIVE_VERIFICATION_OBLIGATIONS := by
  unfold rememberFailedVerification
  split
  next present =>
    rw [OrderedMap.size_set_of_not_has _ (by simp), OrderedMap.size_erase_of_has present]
    exact few
  next absent =>
    have missing : activeIds.has id = false := by simpa using absent
    split
    next room =>
      rw [OrderedMap.size_set_of_not_has _ missing]
      have below : activeIds.size < MAX_ACTIVE_VERIFICATION_OBLIGATIONS := by
        simpa [trackerBound] using room
      omega
    next full =>
      have exact : activeIds.size = MAX_ACTIVE_VERIFICATION_OBLIGATIONS := by
        simp only [trackerBound, Option.all_some, decide_eq_true_eq] at full
        omega
      have many : 1 < activeIds.size := by
        rw [exact]
        decide
      obtain ⟨oldest, found, active, -⟩ := oldestObligation_isSome many
      have evicted := OrderedMap.size_erase_of_has active
      have grown := OrderedMap.size_set_le (activeIds.erase oldest)
        (if activeIds.has VERIFICATION_OVERFLOW_ID then id else VERIFICATION_OVERFLOW_ID) ()
      unfold evictOldest
      rw [found]
      dsimp only
      omega

namespace Tracker

variable {bound : Option Nat} {tracker : Tracker} {application : Application} {id other : String}

@[simp]
theorem describe_activeIds (record : VerificationRecord) :
    (tracker.describe record).activeIds = tracker.activeIds := by
  unfold describe
  split <;> rfl

@[simp]
theorem describe_activeSetupGroups (record : VerificationRecord) :
    (tracker.describe record).activeSetupGroups = tracker.activeSetupGroups := by
  unfold describe
  split <;> rfl

@[simp]
theorem describe_activeRevisions (record : VerificationRecord) :
    (tracker.describe record).activeRevisions = tracker.activeRevisions := by
  unfold describe
  split <;> rfl

@[simp]
theorem describe_openedThisRun (record : VerificationRecord) :
    (tracker.describe record).openedThisRun = tracker.openedThisRun := by
  unfold describe
  split <;> rfl

@[simp]
theorem describe_replaying (record : VerificationRecord) :
    (tracker.describe record).replaying = tracker.replaying := by
  unfold describe
  split <;> rfl

theorem group_eq (tracker : Tracker) (id : String) (setupGroup : Option String) :
    ∃ groups, tracker.group id setupGroup = { tracker with activeSetupGroups := groups } ∧
      ∀ other, groups.get? other = if other = id then
        (if tracker.activeIds.has id then setupGroup else none)
        else tracker.activeSetupGroups.get? other := by
  unfold group
  cases setupGroup with
  | none => exact ⟨_, rfl, fun other => by simp [OrderedMap.get?_erase]⟩
  | some repairGroup =>
      dsimp only
      split
      next active => exact ⟨_, rfl, fun other => by simp [OrderedMap.get?_set]⟩
      next inactive => exact ⟨_, rfl, fun other => by simp [OrderedMap.get?_erase]⟩

theorem date_eq (tracker : Tracker) (id : String) (revision : Nat) :
    ∃ revisions, tracker.date id revision = { tracker with activeRevisions := revisions } ∧
      ∀ other, revisions.get? other = if other = id ∧ tracker.activeIds.has id = true then
        some revision else tracker.activeRevisions.get? other := by
  unfold date
  split
  next active => exact ⟨_, rfl, fun other => by simp [OrderedMap.get?_set, active]⟩
  next inactive => exact ⟨_, rfl, fun other => by simp [inactive]⟩

/-- The identities whose tables a failing record clears. -/
def lostBy (bound : Option Nat) (tracker : Tracker) (id : String) : List String :=
  tracker.activeRevisions.keys.filter fun other =>
    !(rememberFailedVerification bound tracker.activeIds id).has other

theorem mem_lostBy : other ∈ tracker.lostBy bound id ↔
    tracker.activeRevisions.has other = true ∧
      (rememberFailedVerification bound tracker.activeIds id).has other = false := by
  simp [lostBy, OrderedMap.mem_keys]

/-- What a failing record does to every table. -/
structure FailEffect (bound : Option Nat) (before : Tracker) (application : Application)
    (after : Tracker) : Prop where
  activeIds : after.activeIds =
    rememberFailedVerification bound before.activeIds application.record.id
  activeRevisions : ∀ other, after.activeRevisions.get? other =
    if after.activeIds.has other = true then
      if other = application.record.id ∨ other = VERIFICATION_OVERFLOW_ID then
        some application.revision
      else before.activeRevisions.get? other
    else none
  activeSetupGroups : ∀ other, after.activeSetupGroups.get? other =
    if other = application.record.id then
      if after.activeIds.has application.record.id = true then before.setupGroupOf application.record
      else none
    else if other ∈ before.lostBy bound application.record.id then none
    else before.activeSetupGroups.get? other
  descriptions : ∀ other, after.descriptions.get? other =
    if other = application.record.id ∧ after.activeIds.has application.record.id = true ∧
        (application.record.command ≠ none ∨ application.record.cwd ≠ none) then
      some { command := application.record.command, cwd := application.record.cwd }
    else if other ∈ before.lostBy bound application.record.id then none
    else before.descriptions.get? other
  openedThisRun : ∀ other, after.openedThisRun.has other = true ↔
    other ∉ before.lostBy bound application.record.id ∧
      (before.openedThisRun.has other = true ∨
        before.replaying = false ∧ other = application.record.id)
  replaying : after.replaying = before.replaying
  backgroundTaskRevisions : after.backgroundTaskRevisions = before.backgroundTaskRevisions
  transcriptRevision : after.transcriptRevision = before.transcriptRevision

theorem dropInactive_eq :
    tracker.dropInactive =
      { tracker with
        activeRevisions := tracker.activeRevisions.eraseAll
          (tracker.activeRevisions.keys.filter fun id => !tracker.activeIds.has id)
        activeSetupGroups := tracker.activeSetupGroups.eraseAll
          (tracker.activeRevisions.keys.filter fun id => !tracker.activeIds.has id)
        descriptions := tracker.descriptions.eraseAll
          (tracker.activeRevisions.keys.filter fun id => !tracker.activeIds.has id)
        openedThisRun := tracker.openedThisRun.eraseAll
          (tracker.activeRevisions.keys.filter fun id => !tracker.activeIds.has id) } := rfl

theorem describe_descriptions (record : VerificationRecord) :
    (tracker.describe record).descriptions.get? other =
      if other = record.id ∧ tracker.activeIds.has record.id = true ∧
          (record.command ≠ none ∨ record.cwd ≠ none) then
        some { command := record.command, cwd := record.cwd }
      else tracker.descriptions.get? other := by
  unfold describe
  split
  next shown =>
    simp only [OrderedMap.get?_set]
    by_cases same : other = record.id
    · simp [same, shown]
    · simp [same]
  next hidden =>
    rw [if_neg]
    exact fun bad => hidden bad.2

@[simp]
theorem describe_backgroundTaskRevisions (record : VerificationRecord) :
    (tracker.describe record).backgroundTaskRevisions = tracker.backgroundTaskRevisions := by
  unfold describe
  split <;> rfl

@[simp]
theorem describe_transcriptRevision (record : VerificationRecord) :
    (tracker.describe record).transcriptRevision = tracker.transcriptRevision := by
  unfold describe
  split <;> rfl

theorem fail_effect (bound : Option Nat) (tracker : Tracker) (application : Application) :
    FailEffect bound tracker application (tracker.fail bound application) := by
  unfold fail
  dsimp only
  set remembered : Tracker := { tracker with
    activeIds := rememberFailedVerification bound tracker.activeIds application.record.id
    openedThisRun := if tracker.replaying then tracker.openedThisRun
      else tracker.openedThisRun.set application.record.id () } with rememberedEq
  have lost : (remembered.activeRevisions.keys.filter fun id => !remembered.activeIds.has id) =
      tracker.lostBy bound application.record.id := rfl
  set described := remembered.dropInactive.describe application.record with describedEq
  obtain ⟨groups, grouped, groupsAt⟩ :=
    described.group_eq application.record.id (tracker.setupGroupOf application.record)
  obtain ⟨first, dated, firstAt⟩ :=
    ({ described with activeSetupGroups := groups } : Tracker).date_eq application.record.id
      application.revision
  obtain ⟨second, overflowed, secondAt⟩ :=
    ({ described with activeSetupGroups := groups, activeRevisions := first } : Tracker).date_eq
      VERIFICATION_OVERFLOW_ID application.revision
  rw [grouped, dated]
  rw [overflowed]
  have active : described.activeIds =
      rememberFailedVerification bound tracker.activeIds application.record.id := by
    rw [describedEq, describe_activeIds, dropInactive_eq]
  refine {
    activeIds := active
    activeRevisions := ?_
    activeSetupGroups := ?_
    descriptions := ?_
    openedThisRun := ?_
    replaying := ?_
    backgroundTaskRevisions := ?_
    transcriptRevision := ?_ }
  · intro other
    have base : described.activeRevisions.get? other =
        if other ∈ tracker.lostBy bound application.record.id then none
        else tracker.activeRevisions.get? other := by
      rw [describedEq, describe_activeRevisions, dropInactive_eq, lost, OrderedMap.get?_eraseAll]
    rw [secondAt, firstAt, base]
    by_cases there : described.activeIds.has other = true
    · have kept : other ∉ tracker.lostBy bound application.record.id := by
        rw [mem_lostBy, ← active, there]
        simp
      rw [if_neg kept, if_pos there]
      by_cases overflow : other = VERIFICATION_OVERFLOW_ID
      · rw [if_pos ⟨overflow, overflow ▸ there⟩, if_pos (Or.inr overflow)]
      · rw [if_neg fun bad => overflow bad.1]
        by_cases same : other = application.record.id
        · rw [if_pos ⟨same, same ▸ there⟩, if_pos (Or.inl same)]
        · rw [if_neg fun bad => same bad.1, if_neg (by tauto)]
    · have absent : ∀ id, ¬(other = id ∧ described.activeIds.has id = true) := by
        rintro id ⟨rfl, active⟩
        exact there active
      rw [if_neg there, if_neg (absent _), if_neg (absent _)]
      by_cases dated : tracker.activeRevisions.has other = true
      · rw [if_pos]
        rw [mem_lostBy, ← active]
        exact ⟨dated, by simpa using there⟩
      · have absent := OrderedMap.has_eq_false.mp (by simpa using dated)
        rw [absent, ite_self]
  · intro other
    have base : described.activeSetupGroups.get? other =
        if other ∈ tracker.lostBy bound application.record.id then none
        else tracker.activeSetupGroups.get? other := by
      rw [describedEq, describe_activeSetupGroups, dropInactive_eq, lost, OrderedMap.get?_eraseAll]
    rw [groupsAt, base]
  · intro other
    have base : remembered.dropInactive.descriptions.get? other =
        if other ∈ tracker.lostBy bound application.record.id then none
        else tracker.descriptions.get? other := by
      rw [dropInactive_eq, lost, OrderedMap.get?_eraseAll]
    have same : remembered.dropInactive.activeIds = described.activeIds := by
      rw [describedEq, describe_activeIds]
    rw [describedEq, describe_descriptions, base, same]
  · intro other
    have base : described.openedThisRun = remembered.openedThisRun.eraseAll
        (tracker.lostBy bound application.record.id) := by
      rw [describedEq, describe_openedThisRun, dropInactive_eq, lost]
    rw [base, OrderedMap.has_eraseAll, Bool.and_eq_true, decide_eq_true_eq]
    rw [rememberedEq]
    cases tracker.replaying with
    | true => simp
    | false => simp [or_comm]
  · rw [describedEq, describe_replaying, dropInactive_eq]
  · rw [describedEq, describe_backgroundTaskRevisions, dropInactive_eq]
  · rw [describedEq, describe_transcriptRevision, dropInactive_eq]

/-- Whether a passing record clears an identity: its own, or the one it repairs. -/
def Clears (tracker : Tracker) (application : Application) (id : String) : Prop :=
  id = application.record.id ∨ tracker.repairedBy application = some id

instance (tracker : Tracker) (application : Application) (id : String) :
    Decidable (tracker.Clears application id) := inferInstanceAs (Decidable (_ ∨ _))

/-- What a passing record that may clear obligations does to every table. -/
structure PassEffect (before : Tracker) (application : Application) (after : Tracker) : Prop where
  activeIds : ∀ other, after.activeIds.get? other =
    if before.Clears application other then none else before.activeIds.get? other
  activeRevisions : ∀ other, after.activeRevisions.get? other =
    if before.Clears application other then none else before.activeRevisions.get? other
  activeSetupGroups : ∀ other, after.activeSetupGroups.get? other =
    if before.Clears application other then none else before.activeSetupGroups.get? other
  descriptions : ∀ other, after.descriptions.get? other =
    if other = application.record.id then none else before.descriptions.get? other
  openedThisRun : ∀ other, after.openedThisRun.has other = true ↔
    other ≠ application.record.id ∧ before.openedThisRun.has other = true
  size : after.activeIds.size ≤ before.activeIds.size
  replaying : after.replaying = before.replaying
  backgroundTaskRevisions : after.backgroundTaskRevisions = before.backgroundTaskRevisions
  transcriptRevision : after.transcriptRevision = before.transcriptRevision

theorem pass_effect (tracker : Tracker) (application : Application) :
    PassEffect tracker application (tracker.pass application) := by
  unfold pass
  cases repaired : tracker.repairedBy application with
  | none =>
      have cleared : ∀ id, tracker.Clears application id ↔ id = application.record.id := by
        intro id
        simp [Clears, repaired]
      refine {
        activeIds := fun other => ?_
        activeRevisions := fun other => ?_
        activeSetupGroups := fun other => ?_
        descriptions := fun other => OrderedMap.get?_erase _ _ _
        openedThisRun := fun other => by simp [release]
        size := OrderedMap.size_erase_le _ _
        replaying := rfl
        backgroundTaskRevisions := rfl
        transcriptRevision := rfl } <;> simp only [cleared] <;> exact OrderedMap.get?_erase _ _ _
  | some repairOf =>
      have cleared : ∀ id, tracker.Clears application id ↔
          id = application.record.id ∨ id = repairOf := by
        intro id
        simp [Clears, repaired, eq_comm]
      refine {
        activeIds := fun other => ?_
        activeRevisions := fun other => ?_
        activeSetupGroups := fun other => ?_
        descriptions := fun other => OrderedMap.get?_erase _ _ _
        openedThisRun := fun other => by simp [release]
        size := (OrderedMap.size_erase_le _ _).trans (OrderedMap.size_erase_le _ _)
        replaying := rfl
        backgroundTaskRevisions := rfl
        transcriptRevision := rfl }
      all_goals
        simp only [cleared, release, OrderedMap.get?_erase]
        by_cases own : other = application.record.id <;> by_cases same : other = repairOf <;>
          simp [own, same]

theorem repairedBy_eq_some {repairOf : String} :
    tracker.repairedBy application = some repairOf ↔
      application.record.repairOf = some repairOf ∧ application.record.outcome = some .executed ∧
        application.record.repairGroup ≠ none ∧
        tracker.activeSetupGroups.get? repairOf = application.record.repairGroup ∧
        ∃ revision, tracker.activeRevisions.get? repairOf = some revision ∧
          revision < application.revision := by
  simp [repairedBy, Option.filter_eq_some_iff, Option.any_eq_true]

/-- The tables agree on what is active, and what they hold is what the snapshot codec admits. -/
structure Consistent (tracker : Tracker) : Prop where
  dated : ∀ id, tracker.activeRevisions.has id = tracker.activeIds.has id
  grouped : ∀ id group, tracker.activeSetupGroups.get? id = some group →
    tracker.activeIds.has id = true ∧ isVerificationId id = true ∧ isVerificationId group = true
  bounded : tracker.activeIds.size ≤ MAX_ACTIVE_VERIFICATION_OBLIGATIONS
  named : ∀ id, tracker.activeIds.has id = true → isSnapshotVerificationId id = true
  shown : ∀ id description, tracker.descriptions.get? id = some description →
    isSnapshotVerificationId id = true ∧ description.IsDisplayed

theorem setupGroupOf_eq_some {group : String} (found : tracker.setupGroupOf record = some group) :
    record.outcome = some .setupFailed ∧ record.repairGroup = some group := by
  unfold setupGroupOf at found
  split at found
  next fine => exact ⟨fine.1, found⟩
  next => cases found

/-- The revision table dates exactly the active obligations. -/
def Dated (tracker : Tracker) : Prop :=
  ∀ id, tracker.activeRevisions.has id = tracker.activeIds.has id

theorem Dated.fail (dated : tracker.Dated) : (tracker.fail bound application).Dated := by
  have effect := fail_effect bound tracker application
  intro id
  unfold OrderedMap.has
  rw [effect.activeRevisions]
  by_cases there : (tracker.fail bound application).activeIds.has id = true
  · have present : ((tracker.fail bound application).activeIds.get? id).isSome = true := there
    rw [if_pos there, present]
    split
    · rfl
    next other =>
      rw [effect.activeIds] at there
      rcases has_of_has_rememberFailedVerification there with before | named
      · rw [← dated] at before
        exact before
      · exact absurd named other
  · have absent : ((tracker.fail bound application).activeIds.get? id).isSome = false := by
      simpa [OrderedMap.has] using there
    rw [if_neg there, absent]
    rfl

theorem Dated.pass (dated : tracker.Dated) : (tracker.pass application).Dated := by
  have effect := pass_effect tracker application
  intro id
  unfold OrderedMap.has
  rw [effect.activeRevisions, effect.activeIds]
  split
  · rfl
  · exact dated id

theorem Dated.applyRecord (dated : tracker.Dated) :
    (tracker.applyRecord bound application).Dated := by
  unfold Tracker.applyRecord
  split
  · exact dated
  · split
    · split
      · exact dated.pass
      · exact dated
    · exact dated.fail

theorem Consistent.fail (consistent : tracker.Consistent)
    (wellFormed : application.record.WellFormed) :
    (tracker.fail trackerBound application).Consistent := by
  have effect := fail_effect trackerBound tracker application
  have active : ∀ id, (tracker.fail trackerBound application).activeIds.has id = true →
      tracker.activeIds.has id = true ∨ id = application.record.id ∨
        id = VERIFICATION_OVERFLOW_ID := by
    intro id
    rw [effect.activeIds]
    exact has_of_has_rememberFailedVerification
  refine ⟨Dated.fail consistent.dated, ?_, ?_, ?_, ?_⟩
  · intro id group found
    rw [effect.activeSetupGroups] at found
    split at found
    next same =>
      subst same
      split at found
      next there =>
        obtain ⟨setup, grouped⟩ := setupGroupOf_eq_some found
        exact ⟨there, wellFormed.setup setup, wellFormed.grouped group grouped⟩
      next => cases found
    next =>
      split at found
      · cases found
      next kept =>
        obtain ⟨before, named, valid⟩ := consistent.grouped id group found
        refine ⟨?_, named, valid⟩
        rw [mem_lostBy, consistent.dated, ← effect.activeIds] at kept
        simpa [before] using kept
  · rw [effect.activeIds]
    exact size_rememberFailedVerification _ consistent.bounded
  · intro id there
    rcases active id there with before | rfl | rfl
    · exact consistent.named id before
    · exact wellFormed.named
    · exact isSnapshotVerificationId_overflow
  · intro id description found
    rw [effect.descriptions] at found
    split at found
    next shown =>
      obtain ⟨rfl, -, shows⟩ := shown
      cases found
      exact ⟨wellFormed.named, shows, wellFormed.command, wellFormed.cwd⟩
    next =>
      split at found
      · cases found
      · exact consistent.shown id description found

theorem Consistent.pass (consistent : tracker.Consistent) :
    (tracker.pass application).Consistent := by
  have effect := pass_effect tracker application
  have active : ∀ id, (tracker.pass application).activeIds.has id = true →
      tracker.activeIds.has id = true := by
    intro id there
    obtain ⟨value, found⟩ := OrderedMap.has_eq_true.mp there
    rw [effect.activeIds] at found
    split at found
    · cases found
    · exact OrderedMap.has_eq_true.mpr ⟨value, found⟩
  refine ⟨Dated.pass consistent.dated, ?_, effect.size.trans consistent.bounded, ?_, ?_⟩
  · intro id group found
    rw [effect.activeSetupGroups] at found
    split at found
    · cases found
    next kept =>
      obtain ⟨before, named, valid⟩ := consistent.grouped id group found
      refine ⟨?_, named, valid⟩
      unfold OrderedMap.has
      rw [effect.activeIds, if_neg kept]
      exact before
  · exact fun id there => consistent.named id (active id there)
  · intro id description found
    rw [effect.descriptions] at found
    split at found
    · cases found
    · exact consistent.shown id description found

/-- Applying a well formed record keeps the tables consistent. -/
theorem Consistent.applyRecord (consistent : tracker.Consistent)
    (wellFormed : application.record.WellFormed) :
    (tracker.applyRecord trackerBound application).Consistent := by
  unfold Tracker.applyRecord
  split
  · exact consistent
  · split
    · split
      · exact consistent.pass
      · exact consistent
    · exact consistent.fail wellFormed

end Tracker

end PiAdaptative.Verification
