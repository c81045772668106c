import PiAdaptative.Verification.LostObligations

/-!
# The tracker against the unbounded rules

Every record that leaves the run its witnesses keeps the tracker following the same rules run without
the bound: it agrees with them on every identity it has not lost, and the overflow obligation stands
for those it has.
-/

namespace PiAdaptative.Verification.Watch

open Tracker

/-- What relates a watched tracker to the same rules run without the bound. -/
structure Follows (watch : Watch) (unbounded : Tracker) : Prop where
  agree : ∀ id, id ∉ watch.lost → id ≠ VERIFICATION_OVERFLOW_ID →
    AgreeAt id watch.tracker unbounded
  witnessed : watch.lost ≠ [] → watch.tracker.activeIds.has VERIFICATION_OVERFLOW_ID = true
  overflow : unbounded.activeIds.has VERIFICATION_OVERFLOW_ID = true →
    watch.tracker.activeIds.has VERIFICATION_OVERFLOW_ID = true
  opened : ∀ id, unbounded.openedThisRun.has id = true →
    watch.tracker.openedThisRun.has id = true ∧ id ∉ watch.lost
  replaying : watch.tracker.replaying = unbounded.replaying
  background : watch.tracker.backgroundTaskRevisions = unbounded.backgroundTaskRevisions
  clock : watch.tracker.transcriptRevision = unbounded.transcriptRevision
  dated : watch.tracker.Dated
  datedUnbounded : unbounded.Dated
  recent : watch.tracker.Recent
  recentUnbounded : unbounded.Recent

variable {watch : Watch} {unbounded : Tracker} {application : Application} {id : String}

/-- Following depends on the tables, the clock and the marks of the run only. -/
theorem Follows.of_tables {next : Watch} {nextUnbounded : Tracker}
    (follows : watch.Follows unbounded) (lost : next.lost = watch.lost)
    (activeIds : next.tracker.activeIds = watch.tracker.activeIds)
    (activeRevisions : next.tracker.activeRevisions = watch.tracker.activeRevisions)
    (activeSetupGroups : next.tracker.activeSetupGroups = watch.tracker.activeSetupGroups)
    (activeIds' : nextUnbounded.activeIds = unbounded.activeIds)
    (activeRevisions' : nextUnbounded.activeRevisions = unbounded.activeRevisions)
    (activeSetupGroups' : nextUnbounded.activeSetupGroups = unbounded.activeSetupGroups)
    (opened : ∀ id, nextUnbounded.openedThisRun.has id = true →
      next.tracker.openedThisRun.has id = true ∧ id ∉ watch.lost)
    (replaying : next.tracker.replaying = nextUnbounded.replaying)
    (background : next.tracker.backgroundTaskRevisions = nextUnbounded.backgroundTaskRevisions)
    (clock : next.tracker.transcriptRevision = nextUnbounded.transcriptRevision)
    (recent : next.tracker.Recent) (recentUnbounded : nextUnbounded.Recent) :
    next.Follows nextUnbounded where
  agree := by
    intro id kept individual
    have before := follows.agree id (lost ▸ kept) individual
    refine ⟨?_, ?_, ?_⟩
    · rw [activeIds, activeIds', before.active]
    · rw [activeRevisions, activeRevisions', before.revision]
    · rw [activeSetupGroups, activeSetupGroups', before.setupGroup]
  witnessed := by
    rw [lost, activeIds]
    exact follows.witnessed
  overflow := by
    rw [activeIds, activeIds']
    exact follows.overflow
  opened := by
    rw [lost]
    exact opened
  replaying := replaying
  background := background
  clock := clock
  dated := by
    unfold Dated
    rw [activeRevisions, activeIds]
    exact follows.dated
  datedUnbounded := by
    unfold Dated
    rw [activeRevisions', activeIds']
    exact follows.datedUnbounded
  recent := recent
  recentUnbounded := recentUnbounded

theorem mem_lostTo_failed (failed : application.record.status = .failed)
    (fresh : watch.tracker.isStale application = false) :
    id ∈ watch.lostTo application ↔
      (id = application.record.id ∨ watch.tracker.activeIds.has id = true) ∧
        (rememberFailedVerification trackerBound watch.tracker.activeIds
          application.record.id).has id = false := by
  simp [lostTo, failed, fresh, OrderedMap.mem_keys]

theorem lostTo_of_stale (failed : application.record.status = .failed)
    (stale : watch.tracker.isStale application = true) : watch.lostTo application = [] := by
  simp [lostTo, failed, stale]

theorem lostTo_passed (passed : application.record.status = .passed) :
    watch.lostTo application =
      if application.record.id ∈ watch.lost then application.record.repairOf.toList else [] := by
  simp [lostTo, passed]

theorem Follows.timely (follows : watch.Follows unbounded)
    (timely : watch.tracker.Timely application) : unbounded.Timely application := by
  obtain ⟨past, present⟩ := timely
  rw [follows.clock] at past present
  exact ⟨past, present⟩

theorem Follows.isStale_eq (follows : watch.Follows unbounded)
    (timely : watch.tracker.Timely application) (kept : application.record.id ∉ watch.lost) :
    watch.tracker.isStale application = unbounded.isStale application := by
  by_cases overflow : application.record.id = VERIFICATION_OVERFLOW_ID
  · rw [follows.recent.isStale_overflow timely overflow,
      follows.recentUnbounded.isStale_overflow (follows.timely timely) overflow]
  · exact isStale_congr (follows.agree _ kept overflow)

/-! ### A failing record -/

section Failing

variable (failed : application.record.status = .failed)
include failed

theorem applyRecord_failed (bound : Option Nat) (tracker : Tracker) :
    tracker.applyRecord bound application =
      if tracker.isStale application then tracker else tracker.fail bound application := by
  unfold Tracker.applyRecord
  rw [failed]

theorem agreeAt_failed_of_ne (dated : watch.tracker.Dated) (distinct : id ≠ application.record.id)
    (individual : id ≠ VERIFICATION_OVERFLOW_ID) (kept : id ∉ watch.lostTo application) :
    AgreeAt id (watch.tracker.applyRecord trackerBound application) watch.tracker := by
  rw [applyRecord_failed failed]
  split
  · exact AgreeAt.refl _
  next fresh =>
    refine agreeAt_fail_of_ne dated distinct individual fun active => ?_
    by_contra gone
    exact kept ((mem_lostTo_failed failed (Bool.eq_false_iff.mpr fresh)).mpr
      ⟨Or.inr active, Bool.eq_false_iff.mpr gone⟩)

theorem agreeAt_failed_unbounded (dated : unbounded.Dated) (distinct : id ≠ application.record.id)
    (individual : id ≠ VERIFICATION_OVERFLOW_ID) :
    AgreeAt id (unbounded.applyRecord none application) unbounded := by
  rw [applyRecord_failed failed]
  split
  · exact AgreeAt.refl _
  · refine agreeAt_fail_of_ne dated distinct individual fun active => ?_
    rw [rememberFailedVerification_none, active, Bool.or_true]

theorem Follows.agree_failed (follows : watch.Follows unbounded)
    (timely : watch.tracker.Timely application)
    (kept : id ∉ watch.lostTo application ++ watch.lost)
    (individual : id ≠ VERIFICATION_OVERFLOW_ID) :
    AgreeAt id (watch.tracker.applyRecord trackerBound application)
      (unbounded.applyRecord none application) := by
  rw [List.mem_append, not_or] at kept
  have before := follows.agree id kept.2 individual
  by_cases same : id = application.record.id
  · subst same
    have stale := follows.isStale_eq timely kept.2
    rw [applyRecord_failed failed, applyRecord_failed failed, ← stale]
    split
    · exact before
    next fresh =>
      refine before.fail_self ?_ ?_
      · by_contra gone
        exact kept.1 ((mem_lostTo_failed failed (Bool.eq_false_iff.mpr fresh)).mpr
          ⟨Or.inl rfl, Bool.eq_false_iff.mpr gone⟩)
      · rw [rememberFailedVerification_none]
        simp
  · exact ((agreeAt_failed_of_ne failed follows.dated same individual kept.1).trans before).trans
      (agreeAt_failed_unbounded failed follows.datedUnbounded same individual).symm

theorem witnessed_failed (witnessed : watch.lost ≠ [] →
      watch.tracker.activeIds.has VERIFICATION_OVERFLOW_ID = true)
    (lost : watch.lostTo application ++ watch.lost ≠ []) :
    (watch.tracker.applyRecord trackerBound application).activeIds.has VERIFICATION_OVERFLOW_ID =
      true := by
  rw [applyRecord_failed failed]
  cases stale : watch.tracker.isStale application with
  | true =>
      rw [lostTo_of_stale failed stale, List.nil_append] at lost
      exact witnessed lost
  | false =>
      rw [if_neg (by simp), (fail_effect _ _ _).activeIds]
      by_cases before : watch.lost = []
      · rw [before, List.append_nil] at lost
        obtain ⟨gone, member⟩ := List.exists_mem_of_ne_nil _ lost
        obtain ⟨known, absent⟩ := (mem_lostTo_failed failed stale).mp member
        exact overflow_of_not_has known absent
      · exact overflow_of_fail (Or.inl (witnessed before))

theorem Follows.overflow_failed (follows : watch.Follows unbounded)
    (timely : watch.tracker.Timely application)
    (active : (unbounded.applyRecord none application).activeIds.has VERIFICATION_OVERFLOW_ID =
      true) :
    (watch.tracker.applyRecord trackerBound application).activeIds.has VERIFICATION_OVERFLOW_ID =
      true := by
  have known : watch.tracker.activeIds.has VERIFICATION_OVERFLOW_ID = true ∨
      application.record.id = VERIFICATION_OVERFLOW_ID := by
    rw [applyRecord_failed failed] at active
    split at active
    · exact Or.inl (follows.overflow active)
    · rw [(fail_effect _ _ _).activeIds, rememberFailedVerification_none, Bool.or_eq_true,
        decide_eq_true_eq] at active
      exact active.symm.imp follows.overflow Eq.symm
  rw [applyRecord_failed failed]
  split
  next stale =>
    refine known.resolve_right fun overflow => ?_
    rw [follows.recent.isStale_overflow timely overflow] at stale
    cases stale
  next => rw [(fail_effect _ _ _).activeIds]; exact overflow_of_fail known

theorem Follows.opened_failed (follows : watch.Follows unbounded)
    (timely : watch.tracker.Timely application) (keeps : watch.KeepsWitness application)
    (opened : (unbounded.applyRecord none application).openedThisRun.has id = true) :
    (watch.tracker.applyRecord trackerBound application).openedThisRun.has id = true ∧
      id ∉ watch.lostTo application ++ watch.lost := by
  have earlier : unbounded.openedThisRun.has id = true →
      (watch.tracker.applyRecord trackerBound application).openedThisRun.has id = true ∧
        id ∉ watch.lostTo application ++ watch.lost := by
    intro before
    obtain ⟨there, unlost⟩ := follows.opened id before
    have kept : id ∉ watch.lostTo application := by
      intro costs
      rw [keeps.opened id costs] at there
      cases there
    refine ⟨?_, by simp [kept, unlost]⟩
    rw [applyRecord_failed failed]
    split
    · exact there
    next fresh =>
      refine ((fail_effect _ _ _).openedThisRun id).mpr ⟨?_, Or.inl there⟩
      rw [mem_lostBy, follows.dated]
      rintro ⟨active, gone⟩
      exact kept ((mem_lostTo_failed failed (Bool.eq_false_iff.mpr fresh)).mpr
        ⟨Or.inr active, gone⟩)
  by_cases before : unbounded.openedThisRun.has id = true
  · exact earlier before
  · rw [applyRecord_failed failed] at opened
    split at opened
    · exact absurd opened before
    next fresh =>
      obtain ⟨-, known⟩ := ((fail_effect _ _ _).openedThisRun id).mp opened
      obtain ⟨live, rfl⟩ := known.resolve_left before
      rw [← follows.replaying] at live
      obtain ⟨unlost, kept⟩ := keeps.recorded failed live
      rw [← follows.isStale_eq timely unlost] at fresh
      refine ⟨?_, by simp [kept, unlost]⟩
      rw [applyRecord_failed failed, if_neg fresh]
      refine ((fail_effect _ _ _).openedThisRun _).mpr ⟨?_, Or.inr ⟨live, rfl⟩⟩
      rw [mem_lostBy]
      rintro ⟨-, gone⟩
      exact kept ((mem_lostTo_failed failed (Bool.eq_false_iff.mpr fresh)).mpr
        ⟨Or.inl rfl, gone⟩)

end Failing

/-! ### A passing record -/

variable {tracker : Tracker}

section Passing

variable (passed : application.record.status = .passed)
include passed

theorem applyRecord_passed (bound : Option Nat) (tracker : Tracker) :
    tracker.applyRecord bound application =
      if tracker.isStale application = true ∨ application.canClear = false then tracker
      else tracker.pass application := by
  unfold Tracker.applyRecord
  rw [passed]
  cases tracker.isStale application <;> cases application.canClear <;> rfl

theorem agreeAt_passed_of_not_clears (bound : Option Nat)
    (untouched : ¬tracker.Clears application id) :
    AgreeAt id (tracker.applyRecord bound application) tracker := by
  rw [applyRecord_passed passed]
  split
  · exact AgreeAt.refl _
  · exact agreeAt_pass_of_not_clears untouched

theorem Follows.agree_passed (follows : watch.Follows unbounded)
    (timely : watch.tracker.Timely application)
    (kept : id ∉ watch.lostTo application ++ watch.lost)
    (individual : id ≠ VERIFICATION_OVERFLOW_ID) :
    AgreeAt id (watch.tracker.applyRecord trackerBound application)
      (unbounded.applyRecord none application) := by
  rw [List.mem_append, not_or] at kept
  have before := follows.agree id kept.2 individual
  by_cases lost : application.record.id ∈ watch.lost
  · rw [lostTo_passed passed, if_pos lost, Option.mem_toList] at kept
    have untouched : ∀ tracker : Tracker, ¬tracker.Clears application id := by
      rintro tracker (rfl | repaired)
      · exact kept.2 lost
      · exact kept.1 (repairedBy_eq_some.mp repaired).1
    exact ((agreeAt_passed_of_not_clears passed _ (untouched _)).trans before).trans
      (agreeAt_passed_of_not_clears passed _ (untouched _)).symm
  · rw [applyRecord_passed passed, applyRecord_passed passed, ← follows.isStale_eq timely lost]
    split
    · exact before
    · exact before.pass

/-- A pass that may clear removes the overflow obligation only by its own name. -/
theorem overflow_passed (bound : Option Nat) (wellFormed : application.record.WellFormed)
    (active : tracker.activeIds.has VERIFICATION_OVERFLOW_ID = true)
    (other : application.record.id ≠ VERIFICATION_OVERFLOW_ID) :
    (tracker.applyRecord bound application).activeIds.has VERIFICATION_OVERFLOW_ID = true := by
  have untouched : ¬tracker.Clears application VERIFICATION_OVERFLOW_ID := by
    rintro (same | repaired)
    · exact other same.symm
    · have named := wellFormed.repairs _ (repairedBy_eq_some.mp repaired).1
      cases named
  rw [(agreeAt_passed_of_not_clears passed bound untouched).active, active]

theorem Follows.witnessed_passed (follows : watch.Follows unbounded)
    (wellFormed : application.record.WellFormed) (keeps : watch.KeepsWitness application)
    (lost : watch.lostTo application ++ watch.lost ≠ []) :
    (watch.tracker.applyRecord trackerBound application).activeIds.has VERIFICATION_OVERFLOW_ID =
      true := by
  have before : watch.lost ≠ [] := by
    intro none
    rw [lostTo_passed passed, none] at lost
    simp at lost
  exact overflow_passed passed _ wellFormed (follows.witnessed before)
    fun same => before (keeps.dismissed passed same)

theorem Follows.overflow_passed (follows : watch.Follows unbounded)
    (wellFormed : application.record.WellFormed) (timely : watch.tracker.Timely application)
    (active : (unbounded.applyRecord none application).activeIds.has VERIFICATION_OVERFLOW_ID =
      true) :
    (watch.tracker.applyRecord trackerBound application).activeIds.has VERIFICATION_OVERFLOW_ID =
      true := by
  have before : unbounded.activeIds.has VERIFICATION_OVERFLOW_ID = true := by
    rw [applyRecord_passed passed] at active
    split at active
    · exact active
    · obtain ⟨value, found⟩ := OrderedMap.has_eq_true.mp active
      rw [(pass_effect _ _).activeIds] at found
      split at found
      · cases found
      · exact OrderedMap.has_eq_true.mpr ⟨value, found⟩
  by_cases other : application.record.id = VERIFICATION_OVERFLOW_ID
  · have stale := follows.recentUnbounded.isStale_overflow (follows.timely timely) other
    rw [applyRecord_passed passed] at active ⊢
    split at active
    next refused =>
      rw [stale] at refused
      rw [if_pos (Or.inr (refused.resolve_left (by simp)))]
      exact follows.overflow before
    next =>
      have cleared : unbounded.Clears application VERIFICATION_OVERFLOW_ID := Or.inl other.symm
      unfold OrderedMap.has at active
      rw [(pass_effect _ _).activeIds, if_pos cleared] at active
      cases active
  · exact Watch.overflow_passed passed _ wellFormed (follows.overflow before) other

theorem Follows.opened_passed (follows : watch.Follows unbounded)
    (timely : watch.tracker.Timely application) (keeps : watch.KeepsWitness application)
    (opened : (unbounded.applyRecord none application).openedThisRun.has id = true) :
    (watch.tracker.applyRecord trackerBound application).openedThisRun.has id = true ∧
      id ∉ watch.lostTo application ++ watch.lost := by
  have before : unbounded.openedThisRun.has id = true := by
    rw [applyRecord_passed passed] at opened
    split at opened
    · exact opened
    · exact (((pass_effect _ _).openedThisRun id).mp opened).2
  obtain ⟨there, unlost⟩ := follows.opened id before
  have kept : id ∉ watch.lostTo application := by
    intro costs
    rw [keeps.opened id costs] at there
    cases there
  refine ⟨?_, by simp [kept, unlost]⟩
  rw [applyRecord_passed passed] at opened ⊢
  by_cases own : id = application.record.id
  · subst own
    rw [← follows.isStale_eq timely unlost] at opened
    split at opened
    next refused =>
      rw [if_pos refused]
      exact there
    next =>
      exact absurd rfl (((pass_effect _ _).openedThisRun _).mp opened).1
  · split
    · exact there
    · exact ((pass_effect _ _).openedThisRun id).mpr ⟨own, there⟩

end Passing

/-- A record that leaves the run its witnesses keeps the tracker following the unbounded rules. -/
theorem Follows.applyRecord (follows : watch.Follows unbounded)
    (wellFormed : application.record.WellFormed) (timely : watch.tracker.Timely application)
    (keeps : watch.KeepsWitness application) :
    (watch.applyRecord application).Follows (unbounded.applyRecord none application) := by
  obtain ⟨replaying, background, clock⟩ :=
    applyRecord_clock trackerBound watch.tracker application
  obtain ⟨replaying', background', clock'⟩ := applyRecord_clock none unbounded application
  refine {
    agree := ?_
    witnessed := ?_
    overflow := ?_
    opened := ?_
    replaying := replaying.trans (follows.replaying.trans replaying'.symm)
    background := background.trans (follows.background.trans background'.symm)
    clock := clock.trans (follows.clock.trans clock'.symm)
    dated := follows.dated.applyRecord
    datedUnbounded := follows.datedUnbounded.applyRecord
    recent := follows.recent.applyRecord timely
    recentUnbounded := follows.recentUnbounded.applyRecord (follows.timely timely) }
  all_goals cases status : application.record.status
  · exact fun id kept individual => follows.agree_failed status timely kept individual
  · exact fun id kept individual => follows.agree_passed status timely kept individual
  · exact fun lost => witnessed_failed status follows.witnessed lost
  · exact fun lost => follows.witnessed_passed status wellFormed keeps lost
  · exact fun active => follows.overflow_failed status timely active
  · exact fun active => follows.overflow_passed status wellFormed timely active
  · exact fun id opened => follows.opened_failed status timely keeps opened
  · exact fun id opened => follows.opened_passed status timely keeps opened

/-! ### Messages -/

theorem receive_clock (tracker : Tracker) (message : TranscriptMessage) :
    (tracker.receive message).openedThisRun = tracker.openedThisRun ∧
      (tracker.receive message).replaying = tracker.replaying ∧
      (tracker.receive message).transcriptRevision = tracker.transcriptRevision + 1 := by
  unfold Tracker.receive Tracker.placeBackground
  dsimp only
  split
  · split
    · split <;> exact ⟨rfl, rfl, rfl⟩
    · exact ⟨rfl, rfl, rfl⟩
  · exact ⟨rfl, rfl, rfl⟩

variable (message : TranscriptMessage)

theorem receive_background {left right : Tracker}
    (background : left.backgroundTaskRevisions = right.backgroundTaskRevisions)
    (clock : left.transcriptRevision = right.transcriptRevision) :
    (left.receive message).backgroundTaskRevisions =
      (right.receive message).backgroundTaskRevisions := by
  unfold Tracker.receive Tracker.placeBackground
  dsimp only
  split
  · split
    · rw [background, clock]
      split <;> rfl
    · exact background
  · exact background

theorem recent_receive (recent : tracker.Recent) (message : TranscriptMessage) :
    (tracker.receive message).Recent := by
  obtain ⟨-, revisions, -, -⟩ := tracker.receive_tables message
  obtain ⟨-, -, clock⟩ := receive_clock tracker message
  refine ⟨?_, ?_⟩
  · intro id revision found
    rw [revisions] at found
    have past := recent.active id revision found
    omega
  · intro taskId revision found
    rw [clock]
    unfold Tracker.receive Tracker.placeBackground at found
    dsimp only at found
    split at found
    · split at found
      · split at found
        · have past := recent.background taskId revision found
          omega
        · rw [OrderedMap.get?_set] at found
          split at found
          · cases found
            exact le_refl _
          · have past := recent.background taskId revision (OrderedMap.get?_of_keepNewest found)
            omega
      · have past := recent.background taskId revision found
        omega
    · have past := recent.background taskId revision found
      omega

theorem Follows.receive (follows : watch.Follows unbounded) (message : TranscriptMessage) :
    Follows { tracker := watch.tracker.receive message, lost := watch.lost }
      (unbounded.receive message) := by
  obtain ⟨ids, revisions, groups, -⟩ := watch.tracker.receive_tables message
  obtain ⟨ids', revisions', groups', -⟩ := unbounded.receive_tables message
  obtain ⟨opened, replaying, clock⟩ := receive_clock watch.tracker message
  obtain ⟨opened', replaying', clock'⟩ := receive_clock unbounded message
  refine follows.of_tables rfl ids revisions groups ids' revisions' groups' ?_
    (replaying.trans (follows.replaying.trans replaying'.symm))
    (receive_background message follows.background follows.clock) ?_
    (recent_receive follows.recent message) (recent_receive follows.recentUnbounded message)
  · intro id there
    rw [opened'] at there
    rw [opened]
    exact follows.opened id there
  · rw [clock, clock', follows.clock]

theorem applications_congr {left right : Tracker} (revision : Nat)
    (background : left.backgroundTaskRevisions = right.backgroundTaskRevisions) :
    left.applications message revision = right.applications message revision := by
  unfold Tracker.applications Tracker.customApplication Tracker.toolApplication
  rw [background]

theorem Follows.applyAll {applications : List Application} (follows : watch.Follows unbounded)
    (wellFormed : ∀ application ∈ applications, application.record.WellFormed)
    (timely : ∀ application ∈ applications, watch.tracker.Timely application)
    (keeps : Allowed Watch.applyRecord KeepsWitness watch applications) :
    (applications.foldl Watch.applyRecord watch).Follows
      (unbounded.applyAll none applications) := by
  induction applications generalizing watch unbounded with
  | nil => exact follows
  | cons application rest ih =>
      obtain ⟨first, later⟩ := keeps
      have next := follows.applyRecord (wellFormed application List.mem_cons_self)
        (timely application List.mem_cons_self) first
      refine ih next (fun other member => wellFormed other (List.mem_cons_of_mem _ member))
        (fun other member => ?_) later
      obtain ⟨past, present⟩ := timely other (List.mem_cons_of_mem _ member)
      obtain ⟨-, -, clock⟩ := applyRecord_clock trackerBound watch.tracker application
      exact ⟨clock ▸ past, fun overflow => (present overflow).trans clock.symm⟩

theorem Follows.adopt {snapshot : ObligationSnapshot} (follows : watch.Follows unbounded) :
    Follows { tracker := watch.tracker.adopt snapshot watch.tracker.transcriptRevision, lost := [] }
      (unbounded.adopt snapshot unbounded.transcriptRevision) := by
  have dated : ∀ (tracker : Tracker) (revision : Nat), (tracker.adopt snapshot revision).Dated := by
    intro tracker revision id
    simp [Tracker.adopt, has_foldl_set]
  have recent : ∀ tracker : Tracker,
      (tracker.adopt snapshot tracker.transcriptRevision).Recent := by
    intro tracker
    refine ⟨?_, by rintro _ _ ⟨⟩⟩
    intro id revision found
    have only : ∀ (ids : List String) (map : OrderedMap String Nat),
        (∀ id revision, map.get? id = some revision → revision ≤ tracker.transcriptRevision) →
        ∀ id revision, (ids.foldl (fun map id => map.set id tracker.transcriptRevision) map).get?
          id = some revision → revision ≤ tracker.transcriptRevision := by
      intro ids
      induction ids with
      | nil => exact fun _ past => past
      | cons first rest ih =>
          intro map past
          refine ih _ fun id revision found => ?_
          rw [OrderedMap.get?_set] at found
          split at found
          · cases found
            exact le_refl _
          · exact past id revision found
    exact only snapshot.activeIds .empty (by rintro _ _ ⟨⟩) id revision
      found
  refine {
    agree := fun id _ _ => ⟨rfl, ?_, rfl⟩
    witnessed := fun lost => absurd rfl lost
    overflow := id
    opened := fun id there => ⟨(follows.opened id there).1, List.not_mem_nil⟩
    replaying := follows.replaying
    background := rfl
    clock := follows.clock
    dated := dated _ _
    datedUnbounded := dated _ _
    recent := recent _
    recentUnbounded := recent _ }
  rw [follows.clock]
  rfl

theorem Follows.recordMessage {message : TranscriptMessage} (follows : watch.Follows unbounded)
    (keeps : watch.KeepsMessage message) :
    (watch.recordMessage message).Follows (unbounded.recordMessage none message) := by
  have received := follows.receive message
  have applied : Follows
      (((watch.tracker.receive message).applications message
        (watch.tracker.receive message).transcriptRevision).foldl Watch.applyRecord
          { tracker := watch.tracker.receive message, lost := watch.lost })
      ((unbounded.receive message).applyAll none ((unbounded.receive message).applications message
        (unbounded.receive message).transcriptRevision)) := by
    rw [← applications_congr message _ received.background, ← received.clock]
    exact received.applyAll (applications_wellFormed _ _ _) (received.recent.timely message) keeps
  cases message with
  | compactionSummary details =>
      unfold Watch.recordMessage Tracker.recordMessage
      cases read : readVerificationObligationSnapshot details with
      | none =>
          simp only [read]
          exact received
      | some snapshot =>
          simp only [read]
          exact received.adopt
  | custom customType details => exact applied
  | toolResult isError details => exact applied
  | other => exact applied

variable {messages : List TranscriptMessage}

theorem Follows.record (follows : watch.Follows unbounded) (keeps : watch.KeepsMessages messages) :
    (watch.record messages).Follows (unbounded.record none messages) := by
  induction messages generalizing watch unbounded with
  | nil => exact follows
  | cons message rest ih =>
      obtain ⟨first, later⟩ := keeps
      exact ih (follows.recordMessage first) later

/-! ### Runs -/

theorem follows_cleared {opened openedUnbounded : OrderedMap String Unit}
    (subset : ∀ id, openedUnbounded.has id = true → opened.has id = true) :
    (cleared opened).Follows
      { Tracker.fresh with openedThisRun := openedUnbounded, replaying := true } where
  agree := fun _ _ _ => ⟨rfl, rfl, rfl⟩
  witnessed := fun lost => absurd rfl lost
  overflow := id
  opened := fun id there => ⟨subset id there, List.not_mem_nil⟩
  replaying := rfl
  background := rfl
  clock := rfl
  dated := fun _ => rfl
  datedUnbounded := fun _ => rfl
  recent := ⟨fun _ _ impossible => (nomatch impossible), fun _ _ impossible => (nomatch impossible)⟩
  recentUnbounded :=
    ⟨fun _ _ impossible => (nomatch impossible), fun _ _ impossible => (nomatch impossible)⟩

/-- What the unbounded rules hold active of this run's failures the tracker holds active too. -/
theorem Follows.active_of_opened (follows : watch.Follows unbounded)
    (opened : unbounded.openedThisRun.has id = true) (active : unbounded.activeIds.has id = true) :
    watch.tracker.activeIds.has id = true := by
  by_cases overflow : id = VERIFICATION_OVERFLOW_ID
  · subst overflow
    exact follows.overflow active
  · rw [(follows.agree id (follows.opened id opened).2 overflow).active]
    exact active

variable {history : List TranscriptMessage}

theorem Follows.construct (keeps : (cleared .empty).KeepsMessages history) :
    (Watch.construct history).Follows (Tracker.construct none history) := by
  have replayed := (follows_cleared fun _ there => there).record keeps
  exact replayed.of_tables rfl rfl rfl rfl rfl rfl rfl replayed.opened rfl replayed.background
    replayed.clock ⟨replayed.recent.active, replayed.recent.background⟩
    ⟨replayed.recentUnbounded.active, replayed.recentUnbounded.background⟩

theorem Follows.beginSubject (follows : watch.Follows unbounded) :
    (watch.perform .beginSubject).Follows unbounded.beginSubject :=
  follows.of_tables rfl rfl rfl rfl rfl rfl rfl (fun _ impossible => (nomatch impossible))
    follows.replaying follows.background follows.clock
    ⟨follows.recent.active, follows.recent.background⟩
    ⟨follows.recentUnbounded.active, follows.recentUnbounded.background⟩

theorem has_restored (id : String) :
    (tracker.openedThisRun.eraseAll
      (tracker.openedThisRun.keys.filter fun id => !tracker.activeIds.has id)).has id = true ↔
      tracker.openedThisRun.has id = true ∧ tracker.activeIds.has id = true := by
  rw [OrderedMap.has_eraseAll]
  simp only [List.mem_filter, OrderedMap.mem_keys, Bool.not_eq_true', not_and, Bool.not_eq_false,
    Bool.and_eq_true, decide_eq_true_eq]
  tauto

theorem Follows.restore (follows : watch.Follows unbounded)
    (keeps : (cleared watch.tracker.openedThisRun).KeepsMessages messages) :
    (watch.perform (.restore messages)).Follows (unbounded.restore none messages) := by
  have replayed := (follows_cleared fun id there => (follows.opened id there).1).record keeps
  have same : (watch.perform (.restore messages)).tracker =
      { ((cleared watch.tracker.openedThisRun).record messages).tracker with
        replaying := false
        openedThisRun :=
          let restored := ((cleared watch.tracker.openedThisRun).record messages).tracker
          restored.openedThisRun.eraseAll
            (restored.openedThisRun.keys.filter fun id => !restored.activeIds.has id) } := by
    rw [record_tracker]
    rfl
  refine replayed.of_tables rfl (by rw [same]) (by rw [same]) (by rw [same]) rfl rfl rfl ?_
    (by rw [same]; rfl) (by rw [same]; exact replayed.background)
    (by rw [same]; exact replayed.clock)
    (by rw [same]; exact ⟨replayed.recent.active, replayed.recent.background⟩)
    ⟨replayed.recentUnbounded.active, replayed.recentUnbounded.background⟩
  intro id there
  obtain ⟨opened, active⟩ := (has_restored id).mp there
  rw [same]
  refine ⟨(has_restored id).mpr ⟨(replayed.opened id opened).1, ?_⟩, (replayed.opened id opened).2⟩
  exact replayed.active_of_opened opened active

/-- The tracker follows the unbounded rules along every run that leaves the run its witnesses. -/
theorem follows_run {calls : List TrackerCall} (keeps : KeepsRun history calls) :
    (calls.foldl Watch.perform (Watch.construct history)).Follows
      (Tracker.afterUnbounded history calls) := by
  obtain ⟨constructed, called⟩ := keeps
  have start := Follows.construct constructed
  unfold Tracker.afterUnbounded
  generalize Watch.construct history = watch at start called ⊢
  generalize Tracker.construct none history = unbounded at start ⊢
  induction calls generalizing watch unbounded with
  | nil => exact start
  | cons call rest ih =>
      obtain ⟨first, later⟩ := called
      have next : (watch.perform call).Follows (unbounded.perform none call) := by
        cases call with
        | record messages => exact start.record first
        | beginSubject => exact start.beginSubject
        | restore messages => exact start.restore first
      exact ih _ later _ next

theorem run_tracker (history : List TranscriptMessage) (calls : List TrackerCall) :
    (calls.foldl Watch.perform (Watch.construct history)).tracker =
      Tracker.after history calls := by
  unfold Tracker.after
  rw [← construct_tracker]
  generalize Watch.construct history = watch
  induction calls generalizing watch with
  | nil => rfl
  | cons call rest ih => rw [List.foldl_cons, List.foldl_cons, ih, perform_tracker]

end PiAdaptative.Verification.Watch
