import PiAdaptative.Foundations.Folds
import PiAdaptative.Verification.Obligations

/-!
# Obligations across a compaction

A compaction replaces the transcript by a summary that carries a snapshot of the tracker.  The
snapshot is defined, and read back as the same obligations, exactly while every description belongs
to an active obligation; the one record that breaks this repairs a described obligation under
another identity.
-/

namespace PiAdaptative.Verification

inductive TrackerCall where
  | record (messages : List TranscriptMessage)
  | beginSubject
  | restore (messages : List TranscriptMessage)

namespace Tracker

/-- The tracker after a call. -/
def perform (bound : Option Nat) (tracker : Tracker) : TrackerCall → Tracker
  | .record messages => tracker.record bound messages
  | .beginSubject => tracker.beginSubject
  | .restore messages => tracker.restore bound messages

/-- The tracker that was constructed from a history and called. -/
def after (history : List TranscriptMessage) (calls : List TrackerCall) : Tracker :=
  calls.foldl (perform trackerBound) (construct trackerBound history)

/-- Every record that a message applies meets a condition. -/
def AllowedMessage (allowed : Tracker → Application → Prop) (tracker : Tracker)
    (message : TranscriptMessage) : Prop :=
  let received := tracker.receive message
  Allowed (applyRecord trackerBound) allowed received
    (received.applications message received.transcriptRevision)

/-- Every record that some messages apply meets a condition. -/
def AllowedMessages (allowed : Tracker → Application → Prop) :
    Tracker → List TranscriptMessage → Prop :=
  Allowed (recordMessage trackerBound) (AllowedMessage allowed)

/-- Every record that a call applies meets a condition. -/
def AllowedCall (allowed : Tracker → Application → Prop) (tracker : Tracker) :
    TrackerCall → Prop
  | .record messages => AllowedMessages allowed tracker messages
  | .beginSubject => True
  | .restore messages =>
      AllowedMessages allowed
        { Tracker.fresh with openedThisRun := tracker.openedThisRun, replaying := true } messages

/-- Every record that a tracker applies, from its construction on, meets a condition. -/
def AllowedRun (allowed : Tracker → Application → Prop) (history : List TranscriptMessage)
    (calls : List TrackerCall) : Prop :=
  AllowedMessages allowed { Tracker.fresh with replaying := true } history ∧
    Allowed (perform trackerBound) (AllowedCall allowed) (construct trackerBound history) calls

section Decidable

variable {allowed : Tracker → Application → Prop}
  [∀ tracker application, Decidable (allowed tracker application)]

instance (tracker : Tracker) (message : TranscriptMessage) :
    Decidable (AllowedMessage allowed tracker message) :=
  inferInstanceAs (Decidable (Allowed _ _ _ _))

instance (tracker : Tracker) (messages : List TranscriptMessage) :
    Decidable (AllowedMessages allowed tracker messages) :=
  inferInstanceAs (Decidable (Allowed _ _ _ _))

instance (tracker : Tracker) :
    ∀ call : TrackerCall, Decidable (AllowedCall allowed tracker call)
  | .record messages => inferInstanceAs (Decidable (AllowedMessages allowed tracker messages))
  | .beginSubject => isTrue trivial
  | .restore messages => inferInstanceAs (Decidable (AllowedMessages allowed _ messages))

instance (history : List TranscriptMessage) (calls : List TrackerCall) :
    Decidable (AllowedRun allowed history calls) :=
  inferInstanceAs (Decidable (_ ∧ _))

end Decidable

section Invariants

variable {allowed : Tracker → Application → Prop} {holds : Tracker → Prop}

/-- What an invariant of the tables must survive. -/
structure TableInvariant (allowed : Tracker → Application → Prop) (holds : Tracker → Prop) :
    Prop where
  fresh : holds .fresh
  tables : ∀ {before after : Tracker}, holds before → after.activeIds = before.activeIds →
    after.activeRevisions = before.activeRevisions →
    after.activeSetupGroups = before.activeSetupGroups →
    after.descriptions = before.descriptions → holds after
  applied : ∀ {tracker : Tracker} {application : Application}, holds tracker →
    application.record.WellFormed → allowed tracker application →
    holds (tracker.applyRecord trackerBound application)
  adopted : ∀ {tracker : Tracker} {details : Option Json} {snapshot : ObligationSnapshot}
    (revision : Nat), readVerificationObligationSnapshot details = some snapshot →
    holds (tracker.adopt snapshot revision)

theorem receive_tables (tracker : Tracker) (message : TranscriptMessage) :
    (tracker.receive message).activeIds = tracker.activeIds ∧
      (tracker.receive message).activeRevisions = tracker.activeRevisions ∧
      (tracker.receive message).activeSetupGroups = tracker.activeSetupGroups ∧
      (tracker.receive message).descriptions = tracker.descriptions := by
  unfold receive placeBackground
  dsimp only
  split
  · split
    · split <;> exact ⟨rfl, rfl, rfl, rfl⟩
    · exact ⟨rfl, rfl, rfl, rfl⟩
  · exact ⟨rfl, rfl, rfl, rfl⟩

variable {tracker : Tracker}

section

variable (invariant : TableInvariant allowed holds)
include invariant

theorem TableInvariant.recordMessage {message : TranscriptMessage} (held : holds tracker)
    (met : AllowedMessage allowed tracker message) :
    holds (tracker.recordMessage trackerBound message) := by
  obtain ⟨ids, revisions, groups, descriptions⟩ := tracker.receive_tables message
  have received : holds (tracker.receive message) :=
    invariant.tables held ids revisions groups descriptions
  unfold Tracker.recordMessage
  split
  next details =>
    split
    next snapshot read => exact invariant.adopted _ read
    next => exact received
  next =>
    refine Allowed.foldl met received ?_
    intro before application held member fine
    exact invariant.applied held (applications_wellFormed _ _ _ application member) fine

theorem TableInvariant.record {messages : List TranscriptMessage} (held : holds tracker)
    (met : AllowedMessages allowed tracker messages) :
    holds (tracker.record trackerBound messages) :=
  Allowed.foldl met held fun held _ fine => invariant.recordMessage held fine

/-- The invariant of the empty tables. -/
theorem TableInvariant.blank (openedThisRun : OrderedMap String Unit) :
    holds { Tracker.fresh with openedThisRun, replaying := true } :=
  invariant.tables invariant.fresh rfl rfl rfl rfl

theorem TableInvariant.perform {call : TrackerCall} (held : holds tracker)
    (met : AllowedCall allowed tracker call) : holds (tracker.perform trackerBound call) := by
  cases call with
  | record messages => exact invariant.record held met
  | beginSubject => exact invariant.tables held rfl rfl rfl rfl
  | restore messages =>
      have replayed := invariant.record (invariant.blank tracker.openedThisRun) met
      exact invariant.tables replayed rfl rfl rfl rfl

/-- An invariant of the tables holds after every allowed run. -/
theorem TableInvariant.after {history : List TranscriptMessage} {calls : List TrackerCall}
    (met : AllowedRun allowed history calls) : holds (Tracker.after history calls) := by
  have replayed := invariant.record (invariant.blank .empty) met.1
  have constructed : holds (construct trackerBound history) :=
    invariant.tables replayed rfl rfl rfl rfl
  exact Allowed.foldl met.2 constructed fun held _ fine => invariant.perform held fine

end

end Invariants

variable {κ α : Type}

theorem get?_foldl_set [DecidableEq κ] (entries : List (κ × α))
    (distinct : (entries.map Prod.fst).Nodup) (map : OrderedMap κ α) (key : κ) (value : α) :
    (entries.foldl (fun map entry => map.set entry.1 entry.2) map).get? key = some value ↔
      (key, value) ∈ entries ∨ key ∉ entries.map Prod.fst ∧ map.get? key = some value := by
  induction entries generalizing map with
  | nil => simp
  | cons entry entries ih =>
      obtain ⟨fresh, rest⟩ := List.nodup_cons.mp distinct
      rw [List.foldl_cons, ih rest, OrderedMap.get?_set]
      by_cases same : key = entry.1
      · subst same
        simp only [if_true, List.map_cons, List.mem_cons, true_or, not_true_eq_false, false_and,
          or_false]
        constructor
        · rintro (inside | ⟨-, found⟩)
          · exact Or.inr inside
          · cases found
            exact Or.inl rfl
        · rintro (head | inside)
          · exact Or.inr ⟨fresh, congrArg (some ∘ Prod.snd) head.symm⟩
          · exact absurd (List.mem_map_of_mem inside) fresh
      · have other : (key, value) ≠ entry := fun head => same (congrArg Prod.fst head)
        simp [same, other]

theorem has_foldl_set [DecidableEq κ] (keys : List κ) (value : α) (map : OrderedMap κ α) (key : κ) :
    (keys.foldl (fun map key => map.set key value) map).has key =
      (decide (key ∈ keys) || map.has key) := by
  induction keys generalizing map with
  | nil => simp
  | cons first keys ih =>
      rw [List.foldl_cons, ih, OrderedMap.has_set]
      by_cases same : key = first <;> simp [same]

theorem size_foldl_set [DecidableEq κ] (keys : List κ) (value : α) (map : OrderedMap κ α) :
    (keys.foldl (fun map key => map.set key value) map).size ≤ map.size + keys.length := by
  induction keys generalizing map with
  | nil => simp
  | cons first keys ih =>
      have grown := OrderedMap.size_set_le map first value
      have later := ih (map.set first value)
      rw [List.foldl_cons, List.length_cons]
      omega

/-- What the reader of a snapshot guarantees. -/
theorem of_readSnapshot {details : Option Json} {snapshot : ObligationSnapshot}
    (read : readVerificationObligationSnapshot details = some snapshot) :
    boundedCanonicalIds snapshot.activeIds = some snapshot.activeIds ∧
      ((snapshot.setupFailures.map Prod.fst).Nodup ∧ ∀ entry ∈ snapshot.setupFailures,
        entry.1 ∈ snapshot.activeIds ∧ isVerificationId entry.1 = true ∧
          isVerificationId entry.2 = true) ∧
      (snapshot.descriptions.map Prod.fst).Nodup ∧ ∀ entry ∈ snapshot.descriptions,
        entry.1 ∈ snapshot.activeIds ∧ isSnapshotVerificationId entry.1 = true ∧
          entry.2.IsDisplayed := by
  unfold readVerificationObligationSnapshot at read
  simp only [Option.bind_eq_bind, Option.bind_eq_some_iff, guard_eq_some, Option.pure_def,
    Option.some.injEq] at read
  obtain ⟨record, -, candidate, -, -, -, ids, -, canonicalIds, canonical, -, -, setupFailures, setup,
    -, -, descriptions, described, rfl⟩ := read
  obtain ⟨setupDistinct, setups⟩ :=
    of_canonicalSnapshotList (fun _ _ _ read => (of_readSetupFailure read).1) setup
  obtain ⟨describedDistinct, shown⟩ :=
    of_canonicalSnapshotList (fun _ _ _ read => (of_readDescription read).1) described
  refine ⟨boundedCanonicalIds_idem canonical, ⟨setupDistinct, fun entry member => ?_⟩,
    describedDistinct, fun entry member => ?_⟩
  · obtain ⟨active, named, candidate, read⟩ := setups entry member
    exact ⟨active, named, (of_readSetupFailure read).2⟩
  · obtain ⟨active, named, candidate, read⟩ := shown entry member
    exact ⟨active, named, (of_readDescription read).2⟩

section Adopted

variable {tracker : Tracker} {snapshot : ObligationSnapshot} {revision : Nat}

theorem has_adopt_activeIds (id : String) :
    (tracker.adopt snapshot revision).activeIds.has id = decide (id ∈ snapshot.activeIds) := by
  simp [adopt, has_foldl_set]

theorem get?_adopt_activeSetupGroups (distinct : (snapshot.setupFailures.map Prod.fst).Nodup)
    {id group : String} :
    (tracker.adopt snapshot revision).activeSetupGroups.get? id = some group ↔
      (id, group) ∈ snapshot.setupFailures := by
  simp [adopt, get?_foldl_set _ distinct]

theorem get?_adopt_descriptions (distinct : (snapshot.descriptions.map Prod.fst).Nodup)
    {id : String} {description : Description} :
    (tracker.adopt snapshot revision).descriptions.get? id = some description ↔
      (id, description) ∈ snapshot.descriptions := by
  simp [adopt, get?_foldl_set _ distinct]

theorem consistent_adopt {details : Option Json}
    (read : readVerificationObligationSnapshot details = some snapshot) :
    (tracker.adopt snapshot revision).Consistent := by
  obtain ⟨canonical, ⟨setupDistinct, setups⟩, describedDistinct, shown⟩ := of_readSnapshot read
  obtain ⟨-, few, valid, -⟩ := boundedCanonicalIds_eq_some.mp canonical
  refine ⟨?_, ?_, ?_, ?_, ?_⟩
  · intro id
    simp [adopt, has_foldl_set]
  · intro id group found
    obtain ⟨active, rest⟩ := setups _ ((get?_adopt_activeSetupGroups setupDistinct).mp found)
    exact ⟨by simpa [has_adopt_activeIds] using active, rest⟩
  · have size := size_foldl_set snapshot.activeIds () OrderedMap.empty
    simp only [adopt]
    have empty : (OrderedMap.empty : OrderedMap String Unit).size = 0 := rfl
    omega
  · intro id active
    exact valid id (by simpa [has_adopt_activeIds] using active)
  · intro id description found
    exact (shown _ ((get?_adopt_descriptions describedDistinct).mp found)).2

end Adopted

/-- Every description belongs to an active obligation. -/
def Described (tracker : Tracker) : Prop :=
  ∀ id, tracker.descriptions.has id = true → tracker.activeIds.has id = true

/-- Two trackers with the same obligations, setup repairs and descriptions. -/
structure SameObligations (left right : Tracker) : Prop where
  activeIds : left.getActiveIds = right.getActiveIds
  setupGroups : ∀ id, left.activeSetupGroups.get? id = right.activeSetupGroups.get? id
  descriptions : ∀ id, left.descriptions.get? id = right.descriptions.get? id

/-- The snapshot of a tracker is defined, and any tracker that records it has the same
obligations. -/
def SnapshotSurvives (tracker : Tracker) : Prop :=
  ∃ details, tracker.createSnapshotDetails = some details ∧
    ∀ other : Tracker, SameObligations
      (other.record trackerBound [.compactionSummary (some details)]) tracker

section Survival

variable {tracker : Tracker} {application : Application}

theorem getActiveIds_perm (tracker : Tracker) :
    tracker.getActiveIds.Perm tracker.activeIds.keys :=
  sortedTexts_perm _

theorem mem_getActiveIds {id : String} :
    id ∈ tracker.getActiveIds ↔ tracker.activeIds.has id = true :=
  (getActiveIds_perm tracker).mem_iff.trans OrderedMap.mem_keys

theorem Consistent.canonicalIds (consistent : tracker.Consistent) :
    boundedCanonicalIds tracker.getActiveIds = some tracker.getActiveIds := by
  refine boundedCanonicalIds_eq_some.mpr ⟨(sortedTexts_idem _).symm, ?_, ?_, ?_⟩
  · rw [(getActiveIds_perm tracker).length_eq]
    simpa [OrderedMap.keys, OrderedMap.size] using consistent.bounded
  · exact fun id member => consistent.named id (mem_getActiveIds.mp member)
  · exact (getActiveIds_perm tracker).nodup_iff.mpr tracker.activeIds.keys_nodup

theorem Consistent.readable_setup (consistent : tracker.Consistent) :
    ∀ entry ∈ tracker.activeSetupGroups.entries,
      Readable isVerificationId readSetupFailure setupFailureValue entry ∧
        entry.1 ∈ tracker.getActiveIds := by
  intro entry member
  obtain ⟨active, named, grouped⟩ :=
    consistent.grouped entry.1 entry.2 (OrderedMap.get?_eq_some.mpr member)
  exact ⟨readable_setupFailureValue named grouped, mem_getActiveIds.mpr active⟩

theorem Consistent.readable_descriptions (consistent : tracker.Consistent) :
    ∀ entry ∈ tracker.descriptions.entries,
      Readable isSnapshotVerificationId readDescription descriptionValue entry := by
  intro entry member
  obtain ⟨named, displayed⟩ :=
    consistent.shown entry.1 entry.2 (OrderedMap.get?_eq_some.mpr member)
  exact readable_descriptionValue named displayed

def snapshot (tracker : Tracker) : ObligationSnapshot where
  activeIds := tracker.getActiveIds
  setupFailures := sortedById tracker.activeSetupGroups.entries
  descriptions := sortedById tracker.descriptions.entries

theorem Consistent.createSnapshotDetails_eq (consistent : tracker.Consistent)
    (described : tracker.Described) :
    tracker.createSnapshotDetails = some (snapshotDetails tracker.snapshot) := by
  have setup : canonicalSetupFailures
      (some (.arr (tracker.activeSetupGroups.entries.map setupFailureValue))) tracker.getActiveIds =
        some (sortedById tracker.activeSetupGroups.entries) :=
    canonicalSnapshotList_map (fun entry member => (consistent.readable_setup entry member).1)
      (fun entry member => (consistent.readable_setup entry member).2)
      tracker.activeSetupGroups.distinct
  have shown : canonicalDescriptions
      (some (.arr (tracker.descriptions.entries.map descriptionValue))) tracker.getActiveIds =
        some (sortedById tracker.descriptions.entries) :=
    canonicalSnapshotList_map consistent.readable_descriptions
      (fun entry member => mem_getActiveIds.mpr (described entry.1
        (OrderedMap.mem_keys.mp (List.mem_map_of_mem member)))) tracker.descriptions.distinct
  unfold createSnapshotDetails createVerificationObligationSnapshotDetails
  simp [consistent.canonicalIds, setup, shown, snapshot]

theorem Consistent.snapshot_isCanonical (consistent : tracker.Consistent)
    (described : tracker.Described) : tracker.snapshot.IsCanonical where
  ids := consistent.canonicalIds
  setup := by
    exact canonicalSnapshotList_sorted
      (fun entry member => (consistent.readable_setup entry member).1)
      (fun entry member => (consistent.readable_setup entry member).2)
      tracker.activeSetupGroups.distinct
  described := by
    exact canonicalSnapshotList_sorted consistent.readable_descriptions
      (fun entry member => mem_getActiveIds.mpr (described entry.1
        (OrderedMap.mem_keys.mp (List.mem_map_of_mem member)))) tracker.descriptions.distinct

theorem sameObligations_adopt (other : Tracker) (revision : Nat) :
    SameObligations (other.adopt tracker.snapshot revision) tracker where
  activeIds := by
    refine sortedTexts_congr ?_
    refine (List.perm_ext_iff_of_nodup (OrderedMap.keys_nodup _) (OrderedMap.keys_nodup _)).mpr ?_
    intro id
    rw [OrderedMap.mem_keys, OrderedMap.mem_keys, has_adopt_activeIds, decide_eq_true_eq]
    exact mem_getActiveIds
  setupGroups := by
    intro id
    have same := sortedById_perm tracker.activeSetupGroups.entries
    refine Option.ext fun group => ?_
    rw [get?_adopt_activeSetupGroups
      ((same.map Prod.fst).nodup_iff.mpr tracker.activeSetupGroups.distinct),
      OrderedMap.get?_eq_some]
    exact same.mem_iff
  descriptions := by
    intro id
    have same := sortedById_perm tracker.descriptions.entries
    refine Option.ext fun description => ?_
    rw [get?_adopt_descriptions
      ((same.map Prod.fst).nodup_iff.mpr tracker.descriptions.distinct), OrderedMap.get?_eq_some]
    exact same.mem_iff

theorem Consistent.snapshotSurvives_iff (consistent : tracker.Consistent) :
    tracker.SnapshotSurvives ↔ tracker.Described := by
  constructor
  · rintro ⟨details, created, -⟩ id described
    unfold createSnapshotDetails createVerificationObligationSnapshotDetails at created
    simp only [Option.bind_eq_bind, Option.bind_eq_some_iff] at created
    obtain ⟨ids, canonical, -, -, shown, read, -⟩ := created
    obtain rfl := Option.some.inj (consistent.canonicalIds.symm.trans canonical)
    obtain ⟨description, found⟩ := OrderedMap.has_eq_true.mp described
    rw [canonicalDescriptions_eq] at read
    unfold canonicalSnapshotList at read
    dsimp only at read
    split at read
    · obtain ⟨entries, read, -⟩ := Option.map_eq_some_iff.mp read
      refine mem_getActiveIds.mp (mem_of_canonicalEntries (fun entry member => ?_) read
        (id, description) (OrderedMap.get?_eq_some.mp found))
      have readable := consistent.readable_descriptions entry member
      exact ⟨readable.id, readable.object⟩
    · cases read
  · intro described
    refine ⟨_, consistent.createSnapshotDetails_eq described, fun other => ?_⟩
    have read := readVerificationObligationSnapshot_snapshotDetails
      (consistent.snapshot_isCanonical described)
    unfold Tracker.record Tracker.recordMessage
    simp only [List.foldl_cons, List.foldl_nil, read]
    exact sameObligations_adopt _ _

/-- A passing record that repairs a described obligation under another identity. -/
def StrandsDescription (tracker : Tracker) (application : Application) : Prop :=
  tracker.isStale application = false ∧ application.record.status = .passed ∧
    application.canClear = true ∧ ∃ repairOf ∈ tracker.repairedBy application,
      repairOf ≠ application.record.id ∧ tracker.descriptions.has repairOf = true

instance (tracker : Tracker) (application : Application) :
    Decidable (tracker.StrandsDescription application) :=
  inferInstanceAs (Decidable (_ ∧ _ ∧ _ ∧ _))

theorem Described.pass_iff (described : tracker.Described) :
    (tracker.pass application).Described ↔ ∀ repairOf ∈ tracker.repairedBy application,
      repairOf ≠ application.record.id → tracker.descriptions.has repairOf = false := by
  have effect := pass_effect tracker application
  constructor
  · intro after repairOf repaired other
    by_contra shown
    have still : (tracker.pass application).descriptions.has repairOf = true := by
      unfold OrderedMap.has
      rw [effect.descriptions, if_neg other]
      simpa [OrderedMap.has, Option.isSome_iff_ne_none] using shown
    have cleared : tracker.Clears application repairOf := Or.inr repaired
    have active := after repairOf still
    unfold OrderedMap.has at active
    rw [effect.activeIds, if_pos cleared] at active
    cases active
  · intro repaired id shown
    unfold OrderedMap.has at shown ⊢
    rw [effect.descriptions] at shown
    split at shown
    · cases shown
    next other =>
      rw [effect.activeIds, if_neg]
      · exact described id shown
      · rintro (own | same)
        · exact other own
        · have hidden := repaired id same other
          unfold OrderedMap.has at hidden
          rw [shown] at hidden
          cases hidden

theorem Described.fail (described : tracker.Described) (consistent : tracker.Consistent)
    (bound : Option Nat) : (tracker.fail bound application).Described := by
  have effect := fail_effect bound tracker application
  intro id shown
  unfold OrderedMap.has at shown
  rw [effect.descriptions] at shown
  split at shown
  next current => exact current.1 ▸ current.2.1
  next =>
    split at shown
    · cases shown
    next kept =>
      rw [mem_lostBy, consistent.dated, described id shown, ← effect.activeIds] at kept
      simpa using kept

theorem Described.applyRecord_iff (described : tracker.Described)
    (consistent : tracker.Consistent) :
    (tracker.applyRecord trackerBound application).Described ↔
      ¬tracker.StrandsDescription application := by
  unfold StrandsDescription
  cases stale : tracker.isStale application with
  | true => simpa [applyRecord, stale] using described
  | false =>
      cases status : application.record.status with
      | failed => simpa [applyRecord, stale, status] using described.fail consistent trackerBound
      | passed =>
          cases clears : application.canClear with
          | false => simpa [applyRecord, stale, status, clears] using described
          | true => simp [applyRecord, stale, status, clears, described.pass_iff]

end Survival

/-- Along every run whose records strand no description the tables stay consistent and described. -/
theorem tables_invariant : TableInvariant
    (fun tracker application => ¬tracker.StrandsDescription application)
    fun tracker => tracker.Consistent ∧ tracker.Described where
  fresh := by
    refine ⟨⟨fun _ => rfl, fun _ _ impossible => (nomatch impossible), Nat.zero_le _,
      fun _ impossible => (nomatch impossible), fun _ _ impossible => (nomatch impossible)⟩, ?_⟩
    exact fun _ impossible => (nomatch impossible)
  tables := by
    rintro before after ⟨consistent, described⟩ ids revisions groups descriptions
    refine ⟨⟨?_, ?_, ?_, ?_, ?_⟩, ?_⟩
    · rw [ids, revisions]
      exact consistent.dated
    · rw [ids, groups]
      exact consistent.grouped
    · rw [ids]
      exact consistent.bounded
    · rw [ids]
      exact consistent.named
    · rw [descriptions]
      exact consistent.shown
    · unfold Described
      rw [ids, descriptions]
      exact described
  applied := fun ⟨consistent, described⟩ wellFormed fine =>
    ⟨consistent.applyRecord wellFormed, (described.applyRecord_iff consistent).mpr fine⟩
  adopted := by
    intro tracker details snapshot revision read
    refine ⟨consistent_adopt read, fun id shown => ?_⟩
    obtain ⟨-, -, distinct, active⟩ := of_readSnapshot read
    obtain ⟨description, found⟩ := OrderedMap.has_eq_true.mp shown
    have member := (active _ ((get?_adopt_descriptions distinct).mp found)).1
    simpa [has_adopt_activeIds] using member

/-- The obligations of a tracker survive a compaction after every run none of whose passing records
repairs a described obligation under another identity. -/
theorem obligations_survive_compaction {history : List TranscriptMessage}
    {calls : List TrackerCall}
    (allowed : AllowedRun (fun tracker application => ¬tracker.StrandsDescription application)
      history calls) : (Tracker.after history calls).SnapshotSurvives := by
  obtain ⟨consistent, described⟩ := tables_invariant.after allowed
  exact consistent.snapshotSurvives_iff.mpr described

/-- A tool result that carries a verification record. -/
def givenResult (isError : Bool) (fields : List (String × Json)) : TranscriptMessage :=
  .toolResult isError (some (.obj [("piVerification", .obj (("version", .num 1) :: fields))]))

/-- A check that failed during its setup. -/
def givenSetupFailure (id : String) (shown : List (String × Json)) : TranscriptMessage :=
  givenResult true ([("id", .str id), ("status", .str "failed"), ("outcome", .str "setup_failed"),
    ("repairGroup", .str "unit")] ++ shown)

/-- A passing check that repairs an earlier setup failure. -/
def givenRepair (id repairOf : String) : TranscriptMessage :=
  givenResult false [("id", .str id), ("status", .str "passed"), ("outcome", .str "executed"),
    ("repairGroup", .str "unit"), ("repairOf", .str repairOf)]

/-- Repairing a setup failure that shows its command loses every obligation at the next
compaction. -/
theorem repaired_description_loses_snapshot :
    ¬(Tracker.after [] [.record [givenSetupFailure "first" [("command", .str "npm test")],
      givenRepair "second" "first"]]).SnapshotSurvives := by
  rintro ⟨details, created, -⟩
  have lost : (Tracker.after [] [.record [givenSetupFailure "first" [("command", .str "npm test")],
      givenRepair "second" "first"]]).createSnapshotDetails.isNone = true := by
    decide +kernel
  rw [created] at lost
  cases lost

/-- A described failure and a repaired setup failure that shows nothing survive a compaction. -/
theorem silent_repair_survives :
    (Tracker.after [] [.record [givenResult true [("id", .str "build"), ("status", .str "failed"),
      ("command", .str "npm run build")], givenSetupFailure "first" [],
      givenRepair "second" "first"]]).SnapshotSurvives :=
  obligations_survive_compaction (by decide +kernel)

end Tracker

end PiAdaptative.Verification
