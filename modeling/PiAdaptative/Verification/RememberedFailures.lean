import PiAdaptative.Verification.UnboundedRules

/-!
# Remembered failures

An unresolved failure stays active, or the overflow obligation stands for it, and the run that
recorded it marks its final answer.  The second part fails where the failure costs the tracker an
identity: the overflow obligation then stands for it, but the run has not opened that obligation.
-/

namespace PiAdaptative.Verification

/-- A message whose records pass, repair or fail checks. -/
def TranscriptMessage.CarriesRecords : TranscriptMessage → Prop
  | .compactionSummary _ => False
  | .custom customType _ => customType ≠ VERIFICATION_DISMISSAL_CUSTOM_TYPE
  | .toolResult _ _ => True
  | .other => True

/-- What the tracker remembers of the failures that the unbounded rules hold unresolved. -/
structure RemembersFailures (tracker unbounded : Tracker) : Prop where
  /-- An active failure is active in the tracker, or the overflow obligation stands for it. -/
  active : ∀ id, unbounded.activeIds.has id = true →
    tracker.activeIds.has id = true ∨ tracker.activeIds.has VERIFICATION_OVERFLOW_ID = true
  overflow : tracker.activeIds.has VERIFICATION_OVERFLOW_ID = true →
    ∀ message : TranscriptMessage, message.CarriesRecords →
      (tracker.recordMessage trackerBound message).activeIds.has VERIFICATION_OVERFLOW_ID = true
  /-- An unresolved failure of the current run marks an ordinary final answer. -/
  marked : unbounded.getIdsOpenedThisRun ≠ [] → ∀ message : AssistantMessage,
    message.IsOrdinaryAnswer → tracker.enforceTerminalMessage message =
      { message with
        stopReason := "error"
        errorMessage := some VERIFICATION_HANDOFF_REQUIRED_ERROR }

namespace Tracker

variable {tracker : Tracker}

theorem mem_getIdsOpenedThisRun {id : String} :
    id ∈ tracker.getIdsOpenedThisRun ↔
      tracker.openedThisRun.has id = true ∧ tracker.activeIds.has id = true := by
  unfold getIdsOpenedThisRun
  rw [(sortedTexts_perm _).mem_iff, List.mem_filter, OrderedMap.mem_keys]

variable {message : TranscriptMessage}

theorem individual_of_passed {revision : Nat} {application : Application}
    (carries : message.CarriesRecords)
    (member : application ∈ tracker.applications message revision)
    (passed : application.record.status = .passed) :
    application.record.id ≠ VERIFICATION_OVERFLOW_ID := by
  have individual : ∀ {record : VerificationRecord}, isVerificationId record.id = true →
      record.id ≠ VERIFICATION_OVERFLOW_ID := by
    intro record named overflow
    rw [overflow, isVerificationId_overflow] at named
    cases named
  unfold applications at member
  split at member
  next => exact nomatch member
  next customType details =>
    rw [if_neg carries] at member
    split at member
    · exact nomatch member
    · obtain rfl := List.mem_singleton.mp member
      cases passed
    next records read =>
      obtain ⟨record, inside, rfl⟩ := List.mem_map.mp member
      exact individual (wellFormed_of_readEvents read record inside).2
  next isError details =>
    obtain ⟨record, inside, rfl⟩ := List.mem_map.mp member
    exact individual (wellFormed_of_readTool (Option.mem_toList.mp inside)).2
  next => exact nomatch member

/-- No message with records removes the overflow obligation. -/
theorem overflow_recordMessage (carries : message.CarriesRecords)
    (active : tracker.activeIds.has VERIFICATION_OVERFLOW_ID = true) :
    (tracker.recordMessage trackerBound message).activeIds.has VERIFICATION_OVERFLOW_ID = true := by
  obtain ⟨ids, -, -, -⟩ := tracker.receive_tables message
  rw [← ids] at active
  have applied : ((tracker.receive message).applyAll trackerBound
      ((tracker.receive message).applications message
        (tracker.receive message).transcriptRevision)).activeIds.has VERIFICATION_OVERFLOW_ID =
      true := by
    have each : ∀ application ∈ (tracker.receive message).applications message
        (tracker.receive message).transcriptRevision, application.record.WellFormed ∧
        (application.record.status = .passed →
          application.record.id ≠ VERIFICATION_OVERFLOW_ID) := by
      intro application member
      exact ⟨applications_wellFormed _ _ _ application member,
        individual_of_passed carries member⟩
    generalize (tracker.receive message).applications message
      (tracker.receive message).transcriptRevision = applications at each
    generalize tracker.receive message = received at active
    induction applications generalizing received with
    | nil => exact active
    | cons application rest ih =>
        obtain ⟨wellFormed, individual⟩ := each application List.mem_cons_self
        refine ih (fun other member => each other (List.mem_cons_of_mem _ member)) _ ?_
        cases status : application.record.status with
        | passed => exact Watch.overflow_passed status _ wellFormed active (individual status)
        | failed =>
            rw [Watch.applyRecord_failed status]
            split
            · exact active
            · rw [(fail_effect _ _ _).activeIds]
              exact overflow_of_fail (Or.inl active)
  cases message with
  | compactionSummary details => exact carries.elim
  | custom customType details => exact applied
  | toolResult isError details => exact applied
  | other => exact applied

end Tracker

theorem Watch.Follows.remembersFailures {watch : Watch} {unbounded : Tracker}
    (follows : watch.Follows unbounded) : RemembersFailures watch.tracker unbounded where
  active := by
    intro id active
    by_cases overflow : id = VERIFICATION_OVERFLOW_ID
    · exact Or.inl (overflow ▸ follows.overflow (overflow ▸ active))
    · by_cases lost : id ∈ watch.lost
      · exact Or.inr (follows.witnessed (List.ne_nil_of_mem lost))
      · rw [(follows.agree id lost overflow).active]
        exact Or.inl active
  overflow := fun active _ carries => Tracker.overflow_recordMessage carries active
  marked := by
    rintro unresolved message ⟨notError, notAborted, noCall⟩
    obtain ⟨id, member⟩ := List.exists_mem_of_ne_nil _ unresolved
    obtain ⟨opened, active⟩ := Tracker.mem_getIdsOpenedThisRun.mp member
    have held : id ∈ watch.tracker.getIdsOpenedThisRun := Tracker.mem_getIdsOpenedThisRun.mpr
      ⟨(follows.opened id opened).1, follows.active_of_opened opened active⟩
    have some : watch.tracker.getIdsOpenedThisRun.length ≠ 0 :=
      (List.length_pos_of_mem held).ne'
    unfold Tracker.enforceTerminalMessage
    rw [if_neg]
    rintro (bad | bad | bad | bad)
    · exact notError bad
    · exact notAborted bad
    · exact noCall (by simpa using bad)
    · exact some bad

/-- No unresolved failure is forgotten in a run that leaves itself its witnesses. -/
theorem unresolved_failures_remembered {history : List TranscriptMessage}
    {calls : List TrackerCall} (keeps : Watch.KeepsRun history calls) :
    RemembersFailures (Tracker.after history calls) (Tracker.afterUnbounded history calls) := by
  rw [← Watch.run_tracker]
  exact (Watch.follows_run keeps).remembersFailures

def givenFailure (id : String) : TranscriptMessage :=
  Tracker.givenResult true [("id", .str id), ("status", .str "failed")]

def givenAnswer : AssistantMessage where
  blockTypes := ["text"]
  stopReason := "stop"
  errorMessage := none

/-- Sixteen checks that an earlier run left failing. -/
def sixteenFailures : List TranscriptMessage :=
  ["a", "b", "c", "d", "e", "f", "g", "h", "i", "j", "k", "l", "m", "n", "o", "p"].map givenFailure

/-- The seventeenth failure is kept only by the overflow obligation, which the run that recorded it
did not open: its final answer is not marked. -/
theorem overflowing_failure_is_forgotten :
    ¬RemembersFailures (Tracker.after sixteenFailures [.record [givenFailure "late"]])
      (Tracker.afterUnbounded sixteenFailures [.record [givenFailure "late"]]) := by
  rintro ⟨-, -, marked⟩
  have unresolved : (Tracker.afterUnbounded sixteenFailures
      [.record [givenFailure "late"]]).getIdsOpenedThisRun ≠ [] := by
    decide +kernel
  have answered := marked unresolved givenAnswer (by decide)
  have unmarked : (Tracker.after sixteenFailures
      [.record [givenFailure "late"]]).enforceTerminalMessage givenAnswer = givenAnswer := by
    decide +kernel
  rw [unmarked] at answered
  exact absurd (congrArg AssistantMessage.stopReason answered) (by decide)

instance (watch : Watch) (application : Application) :
    Decidable (watch.KeepsWitness application) :=
  decidable_of_iff
    ((application.record.status = .failed → watch.tracker.replaying = false →
        application.record.id ∉ watch.lost ∧ application.record.id ∉ watch.lostTo application) ∧
      (∀ id ∈ watch.lostTo application, watch.tracker.openedThisRun.has id = false) ∧
      (application.record.status = .passed → application.record.id = VERIFICATION_OVERFLOW_ID →
        watch.lost = []))
    ⟨fun ⟨recorded, opened, dismissed⟩ => ⟨recorded, opened, dismissed⟩,
      fun ⟨recorded, opened, dismissed⟩ => ⟨recorded, opened, dismissed⟩⟩

instance (watch : Watch) (message : TranscriptMessage) : Decidable (watch.KeepsMessage message) :=
  inferInstanceAs (Decidable (Allowed _ _ _ _))

instance (watch : Watch) (messages : List TranscriptMessage) :
    Decidable (watch.KeepsMessages messages) :=
  inferInstanceAs (Decidable (Allowed _ _ _ _))

instance (watch : Watch) : ∀ call : TrackerCall, Decidable (watch.KeepsCall call)
  | .record messages => inferInstanceAs (Decidable (watch.KeepsMessages messages))
  | .beginSubject => isTrue trivial
  | .restore messages => inferInstanceAs (Decidable (Watch.KeepsMessages _ messages))

instance (history : List TranscriptMessage) (calls : List TrackerCall) :
    Decidable (Watch.KeepsRun history calls) :=
  inferInstanceAs (Decidable (_ ∧ _))

/-- After an earlier run overflowed, a check passes and a new failure finds room: it is remembered. -/
theorem failure_with_room_is_remembered :
    RemembersFailures
      (Tracker.after (sixteenFailures ++ [givenFailure "q"])
        [.record [Tracker.givenResult false [("id", .str "c"), ("status", .str "passed")],
          givenFailure "late"]])
      (Tracker.afterUnbounded (sixteenFailures ++ [givenFailure "q"])
        [.record [Tracker.givenResult false [("id", .str "c"), ("status", .str "passed")],
          givenFailure "late"]]) :=
  unresolved_failures_remembered (by decide +kernel)

end PiAdaptative.Verification
