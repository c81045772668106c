import PiAdaptative.Verification.SnapshotSurvival

/-!
# Obligations beyond the bound

The tracker retains sixteen obligations.  A seventeenth failure costs one of them its identity, and
the overflow obligation stands for it from then on.  This file compares the tracker with the same
record rules run without the bound, and watches which identities the tracker has lost.
-/

namespace PiAdaptative.Verification

/-- A tracker with the identities it has lost since the last snapshot it adopted. -/
structure Watch where
  tracker : Tracker
  lost : List String

namespace Watch

/-- The identities that a record costs the tracker: those a new failure evicts (itself, where only
the overflow obligation is kept of it), and the one that a pass of a lost identity asks to
repair. -/
def lostTo (watch : Watch) (application : Application) : List String :=
  match application.record.status with
  | .failed =>
      if watch.tracker.isStale application then []
      else
        (application.record.id :: watch.tracker.activeIds.keys).filter fun id =>
          !(rememberFailedVerification trackerBound watch.tracker.activeIds
            application.record.id).has id
  | .passed => if application.record.id ∈ watch.lost then application.record.repairOf.toList else []

/-- `applyRecord`, with the identities it costs. -/
def applyRecord (watch : Watch) (application : Application) : Watch where
  tracker := watch.tracker.applyRecord trackerBound application
  lost := watch.lostTo application ++ watch.lost

/-- One round of the loop of `record`. -/
def recordMessage (watch : Watch) (message : TranscriptMessage) : Watch :=
  let received := watch.tracker.receive message
  match message with
  | .compactionSummary details =>
      match readVerificationObligationSnapshot details with
      | some snapshot =>
          { tracker := received.adopt snapshot received.transcriptRevision, lost := [] }
      | none => { tracker := received, lost := watch.lost }
  | message =>
      (received.applications message received.transcriptRevision).foldl applyRecord
        { tracker := received, lost := watch.lost }

def record (watch : Watch) (messages : List TranscriptMessage) : Watch :=
  messages.foldl recordMessage watch

/-- A tracker whose tables were cleared for a replay. -/
def cleared (openedThisRun : OrderedMap String Unit) : Watch where
  tracker := { Tracker.fresh with openedThisRun, replaying := true }
  lost := []

def construct (messages : List TranscriptMessage) : Watch :=
  let replayed := (cleared .empty).record messages
  { replayed with tracker := { replayed.tracker with replaying := false } }

/-- The tracker after a call. -/
def perform (watch : Watch) : TrackerCall → Watch
  | .record messages => watch.record messages
  | .beginSubject => { watch with tracker := watch.tracker.beginSubject }
  | .restore messages =>
      { tracker := watch.tracker.restore trackerBound messages
        lost := ((cleared watch.tracker.openedThisRun).record messages).lost }

/-- A record that leaves this run its witnesses: a failure the run records keeps its identity and
names none the tracker has lost, no record costs the tracker an obligation the run opened, and the
overflow obligation is dismissed only while no identity is lost. -/
structure KeepsWitness (watch : Watch) (application : Application) : Prop where
  recorded : application.record.status = .failed → watch.tracker.replaying = false →
    application.record.id ∉ watch.lost ∧ application.record.id ∉ watch.lostTo application
  opened : ∀ id ∈ watch.lostTo application, watch.tracker.openedThisRun.has id = false
  dismissed : application.record.status = .passed →
    application.record.id = VERIFICATION_OVERFLOW_ID → watch.lost = []

/-- Every record that a message applies leaves the run its witnesses. -/
def KeepsMessage (watch : Watch) (message : TranscriptMessage) : Prop :=
  let received := watch.tracker.receive message
  Allowed applyRecord KeepsWitness { tracker := received, lost := watch.lost }
    (received.applications message received.transcriptRevision)

/-- Every record that some messages apply leaves the run its witnesses. -/
def KeepsMessages : Watch → List TranscriptMessage → Prop := Allowed recordMessage KeepsMessage

/-- Every record that a call applies leaves the run its witnesses. -/
def KeepsCall (watch : Watch) : TrackerCall → Prop
  | .record messages => KeepsMessages watch messages
  | .beginSubject => True
  | .restore messages => KeepsMessages (cleared watch.tracker.openedThisRun) messages

/-- Every record that a tracker applies, from its construction on, leaves the run its witnesses. -/
def KeepsRun (history : List TranscriptMessage) (calls : List TrackerCall) : Prop :=
  KeepsMessages (cleared .empty) history ∧ Allowed perform KeepsCall (construct history) calls

theorem record_tracker (watch : Watch) (messages : List TranscriptMessage) :
    (watch.record messages).tracker = watch.tracker.record trackerBound messages := by
  have applied : ∀ (applications : List Application) (watch : Watch),
      (applications.foldl applyRecord watch).tracker =
        watch.tracker.applyAll trackerBound applications := by
    intro applications
    induction applications with
    | nil => exact fun _ => rfl
    | cons application rest ih => exact fun watch => ih (watch.applyRecord application)
  have one : ∀ (watch : Watch) (message : TranscriptMessage),
      (watch.recordMessage message).tracker =
        watch.tracker.recordMessage trackerBound message := by
    intro watch message
    cases message with
    | compactionSummary details =>
        cases read : readVerificationObligationSnapshot details <;>
          simp [recordMessage, Tracker.recordMessage, read]
    | custom customType details => exact applied _ _
    | toolResult isError details => exact applied _ _
    | other => exact applied _ _
  unfold record Tracker.record
  induction messages generalizing watch with
  | nil => rfl
  | cons message rest ih => rw [List.foldl_cons, List.foldl_cons, ih, one]

theorem construct_tracker (history : List TranscriptMessage) :
    (construct history).tracker = Tracker.construct trackerBound history := by
  unfold construct Tracker.construct Tracker.replay
  dsimp only
  rw [record_tracker]
  rfl

theorem perform_tracker (watch : Watch) (call : TrackerCall) :
    (watch.perform call).tracker = watch.tracker.perform trackerBound call := by
  cases call with
  | record messages => exact record_tracker watch messages
  | beginSubject => rfl
  | restore messages => rfl

end Watch

namespace Tracker

/-- The same rules run without the bound. -/
def afterUnbounded (history : List TranscriptMessage) (calls : List TrackerCall) : Tracker :=
  calls.foldl (perform none) (construct none history)

/-- Two trackers hold the same on an identity. -/
structure AgreeAt (id : String) (left right : Tracker) : Prop where
  active : left.activeIds.has id = right.activeIds.has id
  revision : left.activeRevisions.get? id = right.activeRevisions.get? id
  setupGroup : left.activeSetupGroups.get? id = right.activeSetupGroups.get? id

namespace AgreeAt

variable {id : String} {first second third : Tracker}

theorem refl (tracker : Tracker) : AgreeAt id tracker tracker := ⟨rfl, rfl, rfl⟩

theorem symm (agree : AgreeAt id first second) : AgreeAt id second first :=
  ⟨agree.active.symm, agree.revision.symm, agree.setupGroup.symm⟩

theorem trans (agree : AgreeAt id first second) (next : AgreeAt id second third) :
    AgreeAt id first third :=
  ⟨agree.active.trans next.active, agree.revision.trans next.revision,
    agree.setupGroup.trans next.setupGroup⟩

end AgreeAt

section Steps

variable {bound other : Option Nat} {left right tracker : Tracker} {application : Application}
  {id : String}

theorem isStale_congr (agree : AgreeAt application.record.id left right) :
    left.isStale application = right.isStale application := by
  unfold isStale
  rw [agree.revision]

/-- An identity that stays active keeps its tables through the failure of another one. -/
theorem agreeAt_fail_of_ne (dated : tracker.Dated) (distinct : id ≠ application.record.id)
    (individual : id ≠ VERIFICATION_OVERFLOW_ID)
    (kept : tracker.activeIds.has id = true →
      (rememberFailedVerification bound tracker.activeIds application.record.id).has id = true) :
    AgreeAt id (tracker.fail bound application) tracker := by
  have effect := fail_effect bound tracker application
  have active : (tracker.fail bound application).activeIds.has id = tracker.activeIds.has id := by
    rw [effect.activeIds]
    by_cases there : tracker.activeIds.has id = true
    · rw [there, kept there]
    · rw [Bool.eq_false_iff.mpr there]
      by_contra added
      rcases has_of_has_rememberFailedVerification (Bool.eq_true_of_not_eq_false added) with
        before | same | same
      · exact there before
      · exact distinct same
      · exact individual same
  have stays : id ∉ tracker.lostBy bound application.record.id := by
    rw [mem_lostBy, dated]
    rintro ⟨there, gone⟩
    rw [kept there] at gone
    cases gone
  refine ⟨active, ?_, ?_⟩
  · rw [effect.activeRevisions, active]
    split
    next => rw [if_neg (by tauto)]
    next absent =>
      rw [← dated] at absent
      exact (OrderedMap.has_eq_false.mp (Bool.eq_false_iff.mpr absent)).symm
  · rw [effect.activeSetupGroups, if_neg distinct, if_neg stays]

/-- An identity that a pass does not name keeps its tables. -/
theorem agreeAt_pass_of_not_clears (untouched : ¬tracker.Clears application id) :
    AgreeAt id (tracker.pass application) tracker := by
  have effect := pass_effect tracker application
  refine ⟨?_, ?_, ?_⟩
  · unfold OrderedMap.has
    rw [effect.activeIds, if_neg untouched]
  · rw [effect.activeRevisions, if_neg untouched]
  · rw [effect.activeSetupGroups, if_neg untouched]

/-- A failure leaves its own tables in agreement, where both sides keep it. -/
theorem AgreeAt.fail_self (agree : AgreeAt application.record.id left right)
    (keptLeft : (rememberFailedVerification bound left.activeIds
      application.record.id).has application.record.id = true)
    (keptRight : (rememberFailedVerification other right.activeIds
      application.record.id).has application.record.id = true) :
    AgreeAt application.record.id (left.fail bound application) (right.fail other application) := by
  have leftEffect := fail_effect bound left application
  have rightEffect := fail_effect other right application
  rw [← leftEffect.activeIds] at keptLeft
  rw [← rightEffect.activeIds] at keptRight
  refine ⟨keptLeft.trans keptRight.symm, ?_, ?_⟩
  · rw [leftEffect.activeRevisions, rightEffect.activeRevisions, if_pos keptLeft, if_pos keptRight,
      if_pos (Or.inl rfl), if_pos (Or.inl rfl)]
  · rw [leftEffect.activeSetupGroups, rightEffect.activeSetupGroups, if_pos rfl, if_pos rfl,
      if_pos keptLeft, if_pos keptRight]
    unfold setupGroupOf
    rw [agree.active, agree.setupGroup]

/-- Passing the same record keeps two trackers in agreement. -/
theorem AgreeAt.pass (agree : AgreeAt id left right) :
    AgreeAt id (left.pass application) (right.pass application) := by
  have same : left.Clears application id ↔ right.Clears application id := by
    unfold Clears
    rw [repairedBy_eq_some, repairedBy_eq_some, agree.revision, agree.setupGroup]
  have leftEffect := pass_effect left application
  have rightEffect := pass_effect right application
  by_cases cleared : left.Clears application id
  · have clearedRight := same.mp cleared
    refine ⟨?_, ?_, ?_⟩
    · unfold OrderedMap.has
      rw [leftEffect.activeIds, rightEffect.activeIds, if_pos cleared, if_pos clearedRight]
    · rw [leftEffect.activeRevisions, rightEffect.activeRevisions, if_pos cleared,
        if_pos clearedRight]
    · rw [leftEffect.activeSetupGroups, rightEffect.activeSetupGroups, if_pos cleared,
        if_pos clearedRight]
  · exact ((agreeAt_pass_of_not_clears cleared).trans agree).trans
      (agreeAt_pass_of_not_clears fun bad => cleared (same.mpr bad)).symm

theorem rememberFailedVerification_none (activeIds : OrderedMap String Unit) (failed id : String) :
    (rememberFailedVerification none activeIds failed).has id =
      (decide (id = failed) || activeIds.has id) := by
  unfold rememberFailedVerification
  split
  next present =>
    by_cases same : id = failed
    · simp [same]
    · simp [same]
  next => simp

theorem has_evictOldest_overflow (activeIds : OrderedMap String Unit) :
    (evictOldest activeIds).has VERIFICATION_OVERFLOW_ID =
      activeIds.has VERIFICATION_OVERFLOW_ID := by
  unfold evictOldest
  cases found : oldestObligation activeIds with
  | none => rfl
  | some oldest =>
      have individual := List.find?_some found
      have named : oldest ≠ VERIFICATION_OVERFLOW_ID := by
        simpa using individual
      simp [named.symm]

variable {activeIds : OrderedMap String Unit}

/-- A failure that costs any identity leaves the overflow obligation. -/
theorem overflow_of_not_has {failed : String} (known : id = failed ∨ activeIds.has id = true)
    (gone : (rememberFailedVerification bound activeIds failed).has id = false) :
    (rememberFailedVerification bound activeIds failed).has VERIFICATION_OVERFLOW_ID = true := by
  unfold rememberFailedVerification at gone ⊢
  split at gone
  · rcases known with same | before
    · simp [same] at gone
    · by_cases same : id = failed <;> simp [same, before] at gone
  next absent =>
    split at gone
    · rw [OrderedMap.has_set, Bool.or_eq_false_iff, decide_eq_false_iff_not] at gone
      rcases known with same | before
      · exact absurd same gone.1
      · rw [before] at gone
        exact absurd gone.2 (by simp)
    next full =>
      rw [if_neg absent, if_neg full]
      by_cases overflowed : activeIds.has VERIFICATION_OVERFLOW_ID = true
      · rw [OrderedMap.has_set, has_evictOldest_overflow, overflowed, Bool.or_true]
      · rw [if_neg overflowed]
        simp

/-- The overflow obligation outlives every failure. -/
theorem overflow_of_fail {failed : String}
    (overflowed : activeIds.has VERIFICATION_OVERFLOW_ID = true ∨
      failed = VERIFICATION_OVERFLOW_ID) :
    (rememberFailedVerification bound activeIds failed).has VERIFICATION_OVERFLOW_ID = true := by
  by_contra gone
  refine gone (overflow_of_not_has ?_ (Bool.eq_false_iff.mpr gone))
  rcases overflowed with before | same
  · exact Or.inr before
  · exact Or.inl same.symm

/-- No record touches the clock of a tracker. -/
theorem applyRecord_clock (bound : Option Nat) (tracker : Tracker) (application : Application) :
    (tracker.applyRecord bound application).replaying = tracker.replaying ∧
      (tracker.applyRecord bound application).backgroundTaskRevisions =
        tracker.backgroundTaskRevisions ∧
      (tracker.applyRecord bound application).transcriptRevision = tracker.transcriptRevision := by
  have passed := pass_effect tracker application
  have failed := fail_effect bound tracker application
  unfold applyRecord
  split
  · exact ⟨rfl, rfl, rfl⟩
  · split
    · split
      · exact ⟨passed.replaying, passed.backgroundTaskRevisions, passed.transcriptRevision⟩
      · exact ⟨rfl, rfl, rfl⟩
    · exact ⟨failed.replaying, failed.backgroundTaskRevisions, failed.transcriptRevision⟩

/-- No revision lies ahead of the transcript. -/
structure Recent (tracker : Tracker) : Prop where
  active : ∀ id revision, tracker.activeRevisions.get? id = some revision →
    revision ≤ tracker.transcriptRevision
  background : ∀ taskId revision, tracker.backgroundTaskRevisions.get? taskId = some revision →
    revision ≤ tracker.transcriptRevision

/-- An application that does not lie ahead of the transcript; those of the overflow obligation speak
for the present. -/
structure Timely (tracker : Tracker) (application : Application) : Prop where
  past : application.revision ≤ tracker.transcriptRevision
  present : application.record.id = VERIFICATION_OVERFLOW_ID →
    application.revision = tracker.transcriptRevision

theorem Recent.applyRecord (recent : tracker.Recent) (timely : tracker.Timely application) :
    (tracker.applyRecord bound application).Recent := by
  obtain ⟨-, backgrounds, clock⟩ := applyRecord_clock bound tracker application
  refine ⟨?_, ?_⟩
  · intro id revision found
    rw [clock]
    unfold Tracker.applyRecord at found
    split at found
    · exact recent.active id revision found
    · split at found
      · split at found
        · rw [(pass_effect tracker application).activeRevisions] at found
          split at found
          · cases found
          · exact recent.active id revision found
        · exact recent.active id revision found
      · rw [(fail_effect bound tracker application).activeRevisions] at found
        split at found
        · split at found
          · cases found
            exact timely.past
          · exact recent.active id revision found
        · cases found
  · intro taskId revision found
    rw [backgrounds] at found
    rw [clock]
    exact recent.background taskId revision found

theorem Recent.isStale_overflow (recent : tracker.Recent) (timely : tracker.Timely application)
    (overflow : application.record.id = VERIFICATION_OVERFLOW_ID) :
    tracker.isStale application = false := by
  unfold isStale
  cases found : tracker.activeRevisions.get? application.record.id with
  | none => rfl
  | some revision =>
      have bound := recent.active _ _ found
      rw [← timely.present overflow] at bound
      simpa using bound

theorem Recent.getD_le (recent : tracker.Recent) (originTaskId : Option String) :
    (originTaskId.bind tracker.backgroundTaskRevisions.get?).getD tracker.transcriptRevision ≤
      tracker.transcriptRevision := by
  cases found : originTaskId.bind tracker.backgroundTaskRevisions.get? with
  | none => exact le_refl _
  | some revision =>
      obtain ⟨taskId, -, placed⟩ := Option.bind_eq_some_iff.mp found
      exact recent.background taskId revision placed

theorem Recent.timely (recent : tracker.Recent) (message : TranscriptMessage) :
    ∀ application ∈ tracker.applications message tracker.transcriptRevision,
      tracker.Timely application := by
  intro application member
  have individual : ∀ {record : VerificationRecord}, isVerificationId record.id = true →
      record.id ≠ VERIFICATION_OVERFLOW_ID := by
    intro record named overflow
    rw [overflow, isVerificationId_overflow] at named
    cases named
  unfold Tracker.applications at member
  split at member
  next => exact nomatch member
  next customType details =>
    split at member
    · obtain ⟨id, -, rfl⟩ := List.mem_map.mp member
      exact ⟨le_refl _, fun _ => rfl⟩
    · split at member
      · exact nomatch member
      · obtain rfl := List.mem_singleton.mp member
        exact ⟨le_refl _, fun _ => rfl⟩
      next records read =>
        obtain ⟨record, inside, rfl⟩ := List.mem_map.mp member
        have named := (wellFormed_of_readEvents read record inside).2
        exact ⟨recent.getD_le record.originTaskId,
          fun overflow => absurd overflow (individual named)⟩
  next isError details =>
    obtain ⟨record, inside, rfl⟩ := List.mem_map.mp member
    have named := (wellFormed_of_readTool (Option.mem_toList.mp inside)).2
    exact ⟨recent.getD_le record.originTaskId, fun overflow => absurd overflow (individual named)⟩
  next => exact nomatch member

end Steps

end Tracker

end PiAdaptative.Verification
