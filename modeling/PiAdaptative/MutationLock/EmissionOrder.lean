import PiAdaptative.MutationLock.Moves

/-!
# The order of emission

A call goes on to the lock only when no call of the other kind that its announcer emitted earlier is
still pending.  Announcements that join or disappear keep this; an announcement that comes late,
before a call that has already passed, does not.
-/

namespace PiAdaptative.MutationLock

/-- Whether a call of the other kind, emitted earlier by the same announcer, is still announced and
has not joined. -/
def PendingBefore (state : State) (call : Call) : Prop :=
  ∃ announcement, state.announcement? call.callId call.announcer = some announcement ∧
    state.hasPendingCallBefore announcement.index call.awaited announcement.announcer = true

/-- Whether a call is past the emission order and has not taken the lock. -/
def Call.Passed (call : Call) : Prop := call.phase = .cleared ∨ call.phase = .lockQueue

/-- What holds of the calls that wait for calls emitted earlier. -/
structure WaitInvariant (state : State) : Prop where
  owned : ∀ key announcement, state.announcements.get? key = some announcement →
    announcement.announcer = key.2
  positioned : ∀ id index, (state.calls id).phase = .emissionWait index →
    ∀ announcement, state.announcement? (state.calls id).callId (state.calls id).announcer =
      some announcement → announcement.index = index
  waiting : ∀ id index, (state.calls id).phase = .emissionWait index →
    state.hasPendingCallBefore index (state.calls id).awaited (state.calls id).announcer = true

/-- What holds of the calls that the emission order concerns. -/
structure OrderInvariant (state : State) : Prop extends WaitInvariant state where
  passed : ∀ id, (state.calls id).Passed → ¬PendingBefore state (state.calls id)

theorem orderInvariant_initialState : OrderInvariant initialState where
  owned _ _ found := by cases found
  positioned _ _ waits := by cases waits
  waiting _ _ waits := by cases waits
  passed _ passed := by rcases passed with cleared | queued <;> cases ‹_›

variable {announcement : ToolCallAnnouncement} {state : State} {callId announcer : Option String}

theorem WaitInvariant.ownedBy (waits : WaitInvariant state)
    (found : state.announcement? callId announcer = some announcement) :
    announcement.announcer = announcer := by
  cases callId with
  | none => cases found
  | some text => exact waits.owned _ _ found

/-- A change of one call that keeps its place in the emission order or ends it. -/
structure InOrder (before after : Call) : Prop where
  same : after.Passed ∨ (∃ index, after.phase = .emissionWait index) →
    after.callId = before.callId ∧ after.announcer = before.announcer ∧
      after.awaited = before.awaited
  passed : after.Passed → before.Passed
  waiting : ∀ index, after.phase = .emissionWait index → before.phase = .emissionWait index

namespace InOrder

theorem refl (call : Call) : InOrder call call :=
  ⟨fun _ => ⟨rfl, rfl, rfl⟩, id, fun _ => id⟩

theorem trans {first second third : Call} (earlier : InOrder first second)
    (later : InOrder second third) : InOrder first third where
  same concerned := by
    obtain ⟨callId, announcer, awaited⟩ := later.same concerned
    obtain ⟨callId', announcer', awaited'⟩ := earlier.same
      (concerned.imp later.passed fun ⟨index, waits⟩ => ⟨index, later.waiting index waits⟩)
    exact ⟨callId.trans callId', announcer.trans announcer', awaited.trans awaited'⟩
  passed passed := earlier.passed (later.passed passed)
  waiting index waits := earlier.waiting index (later.waiting index waits)

/-- A call that leaves the emission order. -/
theorem leave {before after : Call} (passed : ¬after.Passed)
    (waiting : ∀ index, after.phase ≠ .emissionWait index) : InOrder before after where
  same concerned := by
    rcases concerned with there | ⟨index, waits⟩
    · exact absurd there passed
    · exact absurd waits (waiting index)
  passed there := absurd there passed
  waiting index waits := absurd waits (waiting index)

end InOrder

/-- A change after which nobody waits for more than before. -/
structure Calms (before after : State) : Prop where
  pending : ∀ index kind announcer, after.hasPendingCallBefore index kind announcer = true →
    before.hasPendingCallBefore index kind announcer = true
  announced : ∀ key announcement, after.announcements.get? key = some announcement →
    ∃ earlier, before.announcements.get? key = some earlier ∧
      earlier.index = announcement.index ∧ earlier.announcer = announcement.announcer ∧
      (earlier.joined = true → announcement.joined = true)
  calls : ∀ id, InOrder (before.calls id) (after.calls id) ∨
    ∃ index, (before.calls id).phase = .emissionWait index ∧
      (after.calls id).callId = (before.calls id).callId ∧
      (after.calls id).announcer = (before.calls id).announcer ∧
      (after.calls id).awaited = (before.calls id).awaited ∧
      (∀ index, (after.calls id).phase ≠ .emissionWait index) ∧
      after.hasPendingCallBefore index (before.calls id).awaited (before.calls id).announcer = false
  waiting : ∀ id index, (after.calls id).phase = .emissionWait index →
    before.hasPendingCallBefore index (after.calls id).awaited (after.calls id).announcer = true →
    after.hasPendingCallBefore index (after.calls id).awaited (after.calls id).announcer = true

variable {before after : State}

/-- The announcement of a call was there before. -/
theorem Calms.looked (calms : Calms before after)
    (found : after.announcement? callId announcer = some announcement) :
    ∃ earlier, before.announcement? callId announcer = some earlier ∧
      earlier.index = announcement.index ∧ earlier.announcer = announcement.announcer ∧
      (earlier.joined = true → announcement.joined = true) := by
  cases callId with
  | none => cases found
  | some text => exact calms.announced (text, announcer) announcement found

theorem Calms.waits (calms : Calms before after) (waits : WaitInvariant before) :
    WaitInvariant after := by
  have kept : ∀ id index, (after.calls id).phase = .emissionWait index →
      InOrder (before.calls id) (after.calls id) := by
    intro id index waiting
    rcases calms.calls id with kept | ⟨_, -, -, -, -, finished, -⟩
    · exact kept
    · exact absurd waiting (finished index)
  refine ⟨?_, ?_, ?_⟩
  · intro key announcement found
    obtain ⟨earlier, present, -, announcer, -⟩ := calms.announced key announcement found
    rw [← announcer]
    exact waits.owned key earlier present
  · intro id index waiting announcement found
    obtain ⟨callId, announcer, -⟩ := (kept id index waiting).same (Or.inr ⟨index, waiting⟩)
    rw [callId, announcer] at found
    obtain ⟨earlier, present, position, -⟩ := calms.looked found
    rw [← position]
    exact waits.positioned id index ((kept id index waiting).waiting index waiting) earlier present
  · intro id index waiting
    refine calms.waiting id index waiting ?_
    obtain ⟨-, announcer, awaited⟩ := (kept id index waiting).same (Or.inr ⟨index, waiting⟩)
    rw [announcer, awaited]
    exact waits.waiting id index ((kept id index waiting).waiting index waiting)

theorem Calms.order (calms : Calms before after) (order : OrderInvariant before) :
    OrderInvariant after where
  toWaitInvariant := calms.waits order.toWaitInvariant
  passed := by
    rintro id passed ⟨announcement, found, pending⟩
    rcases calms.calls id with kept | ⟨index, waits, callId, announcer, awaited, -, clear⟩
    · obtain ⟨callId, announcer, awaited⟩ := kept.same (Or.inl passed)
      rw [callId, announcer] at found
      rw [awaited] at pending
      obtain ⟨earlier, present, position, owner, -⟩ := calms.looked found
      refine order.passed id (kept.passed passed) ⟨earlier, present, ?_⟩
      rw [position, owner]
      exact calms.pending _ _ _ pending
    · rw [callId, announcer] at found
      rw [awaited] at pending
      obtain ⟨earlier, present, position, owner, -⟩ := calms.looked found
      rw [← position, order.positioned id index waits earlier present, ← owner,
        order.ownedBy present, clear] at pending
      cases pending

variable {id : Nat}

namespace Calms

theorem trans {first second third : State} (earlier : Calms first second)
    (later : Calms second third) : Calms first third where
  pending index kind announcer still :=
    earlier.pending index kind announcer (later.pending index kind announcer still)
  announced key announcement found := by
    obtain ⟨middle, present, position, owner, joins⟩ := later.announced key announcement found
    obtain ⟨source, present', position', owner', joins'⟩ := earlier.announced key middle present
    exact ⟨source, present', position'.trans position, owner'.trans owner,
      fun joined => joins (joins' joined)⟩
  calls id := by
    rcases earlier.calls id with kept | ⟨index, waits, callId, announcer, awaited, finished, clear⟩
    · rcases later.calls id with kept' | ⟨index, waits, callId, announcer, awaited, finished, clear⟩
      · exact Or.inl (kept.trans kept')
      · obtain ⟨callId', announcer', awaited'⟩ := kept.same (Or.inr ⟨index, waits⟩)
        rw [awaited', announcer'] at clear
        exact Or.inr ⟨index, kept.waiting index waits, callId.trans callId',
          announcer.trans announcer', awaited.trans awaited', finished, clear⟩
    · rcases later.calls id with kept | ⟨index, waits, -⟩
      · have quiet : ∀ index, (third.calls id).phase ≠ .emissionWait index :=
          fun index waits => finished index (kept.waiting index waits)
        by_cases passed : (third.calls id).Passed
        · obtain ⟨callId', announcer', awaited'⟩ := kept.same (Or.inl passed)
          refine Or.inr ⟨index, waits, callId'.trans callId, announcer'.trans announcer,
            awaited'.trans awaited, quiet, ?_⟩
          rw [← Bool.not_eq_true] at clear ⊢
          exact fun still => clear (later.pending _ _ _ still)
        · exact Or.inl (.leave passed quiet)
      · exact absurd waits (finished index)
  waiting id index waits pending := by
    refine later.waiting id index waits ?_
    rcases later.calls id with kept | ⟨_, -, -, -, -, finished, -⟩
    · obtain ⟨-, announcer, awaited⟩ := kept.same (Or.inr ⟨index, waits⟩)
      rw [announcer, awaited] at pending ⊢
      exact earlier.waiting id index (kept.waiting index waits) pending
    · exact absurd waits (finished index)

/-- A change of calls only. -/
theorem of_calls (announcements : after.announcements = before.announcements)
    (calls : ∀ id, InOrder (before.calls id) (after.calls id)) : Calms before after := by
  have same : ∀ index kind announcer, after.hasPendingCallBefore index kind announcer =
      before.hasPendingCallBefore index kind announcer := by
    intro index kind announcer
    unfold State.hasPendingCallBefore
    rw [announcements]
  refine ⟨fun index kind announcer => ?_, fun key announcement found => ?_,
    fun id => Or.inl (calls id), fun id index _ => ?_⟩
  · rw [same]
    exact fun still => still
  · rw [announcements] at found
    exact ⟨announcement, found, rfl, rfl, fun joined => joined⟩
  · rw [same]
    exact fun still => still

theorem refl (state : State) : Calms state state := .of_calls rfl fun _ => .refl _

theorem setCall {call : Call} (kept : InOrder (state.calls id) call) :
    Calms state (state.setCall id call) := by
  refine .of_calls rfl fun other => ?_
  by_cases here : other = id
  · subst here
    rw [setCall_self]
    exact kept
  · rw [setCall_of_ne _ _ here]
    exact .refl _

/-- A call that leaves the emission order. -/
theorem setPhase (id : Nat) {phase : Phase} (cleared : phase ≠ .cleared)
    (queued : phase ≠ .lockQueue) (waiting : ∀ index, phase ≠ .emissionWait index) :
    Calms state (state.setPhase id phase) :=
  .setCall (.leave (fun passed => passed.elim cleared queued) waiting)

end Calms

variable {announcer : Option String}

theorem hasPendingCallBefore_eq_true {index : Nat} {kind : ToolCallKind} :
    state.hasPendingCallBefore index kind announcer = true ↔
      ∃ key announcement, state.announcements.get? key = some announcement ∧
        announcement.announcer = announcer ∧ announcement.kind = kind ∧
        announcement.joined = false ∧ announcement.index < index := by
  simp only [State.hasPendingCallBefore, List.any_eq_true, decide_eq_true_eq,
    OrderedMap.mem_values]
  constructor
  · rintro ⟨announcement, ⟨key, found⟩, conditions⟩
    exact ⟨key, announcement, found, conditions⟩
  · rintro ⟨key, announcement, found, conditions⟩
    exact ⟨announcement, ⟨key, found⟩, conditions⟩

/-- Announcements that join or disappear. -/
def Fades (before after : OrderedMap OwnedCallId ToolCallAnnouncement) : Prop :=
  ∀ key announcement, after.get? key = some announcement →
    ∃ earlier, before.get? key = some earlier ∧ earlier.index = announcement.index ∧
      earlier.announcer = announcement.announcer ∧
      (announcement.joined = false → earlier.joined = false ∧ earlier.kind = announcement.kind)

variable (announcements : OrderedMap OwnedCallId ToolCallAnnouncement)

theorem Fades.refl : Fades announcements announcements :=
  fun _ announcement found => ⟨announcement, found, rfl, rfl, fun pending => ⟨pending, rfl⟩⟩

theorem Fades.erase (key : OwnedCallId) : Fades announcements (announcements.erase key) :=
  fun _ announcement found => ⟨announcement, (OrderedMap.get?_of_erase found).1, rfl, rfl,
    fun pending => ⟨pending, rfl⟩⟩

theorem Fades.eraseAll (keys : List OwnedCallId) :
    Fades announcements (announcements.eraseAll keys) := by
  intro key announcement found
  rw [OrderedMap.get?_eraseAll] at found
  split at found
  · cases found
  · exact ⟨announcement, found, rfl, rfl, fun pending => ⟨pending, rfl⟩⟩

/-- An announcement that joins. -/
theorem Fades.join {announcements : OrderedMap OwnedCallId ToolCallAnnouncement}
    {key : OwnedCallId} (present : announcements.get? key = some announcement) :
    Fades announcements (announcements.set key { announcement with joined := true }) := by
  intro other found same
  rw [OrderedMap.get?_set] at same
  split at same
  next here =>
    cases same
    rw [here]
    exact ⟨announcement, present, rfl, rfl, fun pending => by cases pending⟩
  next => exact ⟨found, same, rfl, rfl, fun pending => ⟨pending, rfl⟩⟩

theorem Fades.pending (fades : Fades before.announcements after.announcements) {index : Nat}
    {kind : ToolCallKind} (still : after.hasPendingCallBefore index kind announcer = true) :
    before.hasPendingCallBefore index kind announcer = true := by
  rw [hasPendingCallBefore_eq_true] at still ⊢
  obtain ⟨key, announcement, found, owner, same, pending, before⟩ := still
  obtain ⟨earlier, present, position, owner', rest⟩ := fades key announcement found
  obtain ⟨pending', same'⟩ := rest pending
  exact ⟨key, earlier, present, owner'.trans owner, same'.trans same, pending', position ▸ before⟩

/-- Where the calls stand after the waits that are over have ended. -/
theorem releaseClearedWaiters_calls (state : State) (id : Nat) :
    (state.releaseClearedWaiters.calls id = state.calls id ∧
        ∀ index, (state.calls id).phase = .emissionWait index →
          state.hasPendingCallBefore index (state.calls id).awaited (state.calls id).announcer =
            true) ∨
      ∃ index, (state.calls id).phase = .emissionWait index ∧
        state.hasPendingCallBefore index (state.calls id).awaited (state.calls id).announcer =
          false ∧
        state.releaseClearedWaiters.calls id = { state.calls id with phase := .cleared } := by
  simp only [State.releaseClearedWaiters]
  split
  next index waits =>
    split
    next pending =>
      refine Or.inl ⟨rfl, fun other waits' => ?_⟩
      rw [waits] at waits'
      cases waits'
      exact pending
    next clear => exact Or.inr ⟨index, waits, Bool.not_eq_true _ ▸ clear, rfl⟩
  next elsewhere => exact Or.inl ⟨rfl, fun index waits => absurd waits (elsewhere index)⟩

/-- Announcements fade, and the waits that are over end. -/
theorem Calms.release {state changed : State} (calls : changed.calls = state.calls)
    (fades : Fades state.announcements changed.announcements) :
    Calms state changed.releaseClearedWaiters where
  pending index kind announcer still := fades.pending still
  announced key announcement found := by
    obtain ⟨earlier, present, position, owner, pending⟩ := fades key announcement found
    refine ⟨earlier, present, position, owner, fun joined => ?_⟩
    by_contra waits
    rw [(pending (Bool.not_eq_true _ ▸ waits)).1] at joined
    cases joined
  calls id := by
    rw [← calls]
    rcases releaseClearedWaiters_calls changed id with ⟨same, -⟩ | ⟨index, waits, clear, cleared⟩
    · rw [same]
      exact Or.inl (.refl _)
    · rw [cleared]
      exact Or.inr ⟨index, waits, rfl, rfl, rfl, by simp, clear⟩
  waiting id index waits _ := by
    rcases releaseClearedWaiters_calls changed id with ⟨same, pending⟩ | ⟨_, -, -, cleared⟩
    · rw [same] at waits ⊢
      exact pending index waits
    · rw [cleared] at waits
      cases waits

theorem retire_calms (state : State) (callId : String) (announcer : Option String) :
    Calms state (state.retire callId announcer) := by
  unfold State.retire
  split
  · exact .release rfl (.erase _ _)
  · exact .refl _

theorem markAnnouncementJoined_calms (state : State) (callId announcer : Option String) :
    Calms state (state.markAnnouncementJoined callId announcer) := by
  unfold State.markAnnouncementJoined State.setAnnouncement
  split
  · exact .refl _
  next announcement found =>
    split
    · exact .refl _
    · cases callId with
      | none => exact .release rfl (.refl _)
      | some text => exact .release rfl (.join found)

theorem admit_calms (state : State) (id : Nat) : Calms state (state.admitCall id) := by
  refine .of_calls rfl fun other => ?_
  change InOrder _ (Function.update state.calls id _ other)
  rw [Function.update_apply]
  split
  · exact .leave (by simp [Call.Passed]) (by simp)
  · exact .refl _

theorem pumpFrom_calms (waiting : List Nat) (state : State) :
    Calms state (State.pumpFrom waiting state) := by
  induction waiting generalizing state with
  | nil => exact .of_calls rfl fun _ => .refl _
  | cons head rest ih =>
      unfold State.pumpFrom
      split
      · refine Calms.trans ?_ (ih (state.admitCall head))
        exact admit_calms state head
      · exact .of_calls rfl fun _ => .refl _

theorem releaseLock_calms (state : State) (id : Nat) : Calms state (state.releaseLock id) := by
  have given : Calms state (state.setCall id { state.calls id with holdsLock := false }) :=
    .setCall ⟨fun _ => ⟨rfl, rfl, rfl⟩, fun passed => passed, fun _ waits => waits⟩
  unfold State.releaseLock State.pumpLock
  dsimp only
  split
  · exact given
  · split
    · exact given.trans (.of_calls rfl fun _ => .refl _)
    · refine (given.trans ?_).trans (pumpFrom_calms _ _)
      split
      · refine .of_calls rfl fun other => ?_
        simp only [State.wakeDrainWaiters]
        split
        · exact .leave (by simp [Call.Passed]) (by simp)
        · exact .refl _
      · exact .of_calls rfl fun _ => .refl _

theorem acquireLock_calms (cleared : (state.calls id).phase = .cleared) :
    Calms state (state.acquireLock id) := by
  unfold State.acquireLock
  split
  · exact .setPhase id (by simp) (by simp) (by simp)
  · split
    · exact admit_calms state id
    · have queued : Calms state (state.setPhase id .lockQueue) :=
        .setCall ⟨fun _ => ⟨rfl, rfl, rfl⟩, fun _ => Or.inl cleared,
          fun _ waits => by cases waits⟩
      exact queued.trans (.of_calls rfl fun _ => .refl _)

theorem waitForMutationsToDrain_calms (state : State) (id : Nat) :
    Calms state (state.waitForMutationsToDrain id) := by
  unfold State.waitForMutationsToDrain
  split
  · exact .setPhase id (by simp) (by simp) (by simp)
  · split <;> exact .setPhase id (by simp) (by simp) (by simp)

/-- A change of a call that leaves its place and its identity alone. -/
theorem Calms.touch {call : Call} (phase : call.phase = (state.calls id).phase)
    (callId : call.callId = (state.calls id).callId)
    (announcer : call.announcer = (state.calls id).announcer)
    (group : call.group = (state.calls id).group) : Calms state (state.setCall id call) := by
  refine .setCall ⟨fun _ => ⟨callId, announcer, ?_⟩, ?_, ?_⟩
  · unfold Call.awaited
    rw [group]
  · unfold Call.Passed
    rw [phase]
    exact fun passed => passed
  · rw [phase]
    exact fun _ waits => waits

theorem enterMutation_calms (state : State) (id : Nat) : Calms state (state.enterMutation id) := by
  unfold State.enterMutation
  dsimp only
  split <;> exact (markAnnouncementJoined_calms _ _ _).trans
    (.setPhase id (by simp) (by simp) (by simp))

theorem enterCommand_calms (state : State) (id : Nat) : Calms state (state.enterCommand id) := by
  have joined : Calms state (state.setCall id { state.calls id with queued := false }) :=
    .touch rfl rfl rfl rfl
  unfold State.enterCommand
  dsimp only
  split
  · exact (joined.trans (releaseLock_calms _ _)).trans (waitForMutationsToDrain_calms _ _)
  · exact (joined.trans (markAnnouncementJoined_calms _ _ _)).trans
      (.setPhase id (by simp) (by simp) (by simp))

theorem given_calms (state : State) (id : Nat) :
    Calms state (if (state.calls id).holdsLock = true then state.releaseLock id else state) := by
  split
  · exact releaseLock_calms _ _
  · exact .refl _

theorem leaveMutation_calms (state : State) (id : Nat) : Calms state (state.leaveMutation id) := by
  have given := given_calms state id
  unfold State.leaveMutation
  generalize (if (state.calls id).holdsLock = true then state.releaseLock id else state) = left
    at given ⊢
  have ended : Calms state (left.setPhase id .ended) :=
    given.trans (.setPhase id (by simp) (by simp) (by simp))
  dsimp only
  split
  · exact ended
  · split
    · exact ended.trans (.of_calls rfl fun _ => .refl _)
    · exact ended

theorem unregister_calms (state : State) (id : Nat) : Calms state (state.unregister id) := by
  have marked : Calms state ((state.setCall id { state.calls id with done := true })
      |>.markAnnouncementJoined (state.calls id).callId (state.calls id).announcer) := by
    refine Calms.trans ?_ (markAnnouncementJoined_calms _ _ _)
    exact .touch rfl rfl rfl rfl
  unfold State.unregister
  dsimp only
  split
  · exact marked
  · split
    · exact marked.trans (.of_calls rfl fun _ => .refl _)
    · exact marked

theorem finish_calms (state : State) (id : Nat) : Calms state (state.finish id) := by
  unfold State.finish
  split
  · exact leaveMutation_calms _ _
  · exact ((given_calms state id).trans (unregister_calms _ _)).trans
      (.setPhase id (by simp) (by simp) (by simp))

theorem releaseHold_calms (state : State) (callId : String) (announcer : Option String) :
    Calms state (state.releaseHold callId announcer) := by
  unfold State.releaseHold
  split
  · exact .refl _
  · split
    · exact .refl _
    · have marked := markAnnouncementJoined_calms state (some callId) announcer
      dsimp only
      split
      · exact marked.trans (.touch rfl rfl rfl rfl)
      · split
        · refine Calms.trans ?_ (releaseLock_calms _ _)
          exact marked.trans (.touch rfl rfl rfl rfl)
        · exact marked.trans (.touch rfl rfl rfl rfl)

theorem abort_calms (state : State) (id : Nat) : Calms state (state.abort id) := by
  have flagged : Calms state (state.setCall id { state.calls id with aborted := true }) :=
    .touch rfl rfl rfl rfl
  have failing := flagged.trans (.setPhase id (show Phase.failing ≠ .cleared by simp)
    (by simp) (by simp))
  unfold State.abort
  split
  · exact failing
  · exact failing
  · exact failing
  · exact failing
  · refine Calms.trans ?_ (pumpFrom_calms _ _)
    exact failing.trans (.of_calls rfl fun _ => .refl _)
  · exact flagged

/-- Where a call goes that checks the emission order. -/
theorem check_spec (state : State) (id : Nat) : ∃ phase,
    state.waitForEarlierAnnouncedCalls id = state.setPhase id phase ∧
      (phase = .cleared ∨ phase = .lockQueue → ¬PendingBefore state (state.calls id)) ∧
      ∀ index, phase = .emissionWait index → ∃ announcement,
        state.announcement? (state.calls id).callId (state.calls id).announcer =
            some announcement ∧ announcement.index = index ∧
          state.hasPendingCallBefore index (state.calls id).awaited announcement.announcer =
            true := by
  unfold State.waitForEarlierAnnouncedCalls
  dsimp only
  split
  next missing =>
    refine ⟨_, rfl, fun _ ⟨announcement, found, _⟩ => ?_, fun _ waits => nomatch waits⟩
    rw [missing] at found
    cases found
  next announcement found =>
    split
    next clear =>
      refine ⟨_, rfl, fun _ ⟨other, same, pending⟩ => ?_, fun _ waits => nomatch waits⟩
      rw [found] at same
      cases same
      rw [clear] at pending
      cases pending
    next pending =>
      rw [Bool.not_eq_false] at pending
      split
      · exact ⟨_, rfl, by simp, fun _ waits => nomatch waits⟩
      · refine ⟨_, rfl, by simp, ?_⟩
        rintro _ ⟨⟩
        exact ⟨announcement, found, rfl, pending⟩

theorem WaitInvariant.check (waits : WaitInvariant state) (id : Nat) :
    WaitInvariant (state.waitForEarlierAnnouncedCalls id) := by
  obtain ⟨phase, moved, -, emission⟩ := check_spec state id
  rw [moved]
  refine ⟨waits.owned, ?_, ?_⟩
  · intro other index waiting announcement same
    rw [setPhase_calls] at waiting same
    by_cases here : other = id
    · rw [if_pos here] at waiting same
      obtain ⟨own, found, position, -⟩ := emission index waiting
      change state.announcement? (state.calls id).callId (state.calls id).announcer = _ at same
      rw [found] at same
      cases same
      exact position
    · rw [if_neg here] at waiting same
      exact waits.positioned other index waiting announcement same
  · intro other index waiting
    rw [setPhase_calls] at waiting ⊢
    by_cases here : other = id
    · rw [if_pos here] at waiting ⊢
      obtain ⟨own, found, -, pending⟩ := emission index waiting
      rw [waits.ownedBy found] at pending
      exact pending
    · rw [if_neg here] at waiting ⊢
      exact waits.waiting other index waiting

/-- A call that checks the emission order goes where the order lets it. -/
theorem OrderInvariant.check (order : OrderInvariant state) (id : Nat) :
    OrderInvariant (state.waitForEarlierAnnouncedCalls id) where
  toWaitInvariant := order.toWaitInvariant.check id
  passed := by
    intro other passed
    obtain ⟨phase, moved, clear, -⟩ := check_spec state id
    rw [moved] at passed ⊢
    rw [setPhase_calls] at passed ⊢
    by_cases here : other = id
    · rw [if_pos here] at passed ⊢
      exact clear passed
    · rw [if_neg here] at passed ⊢
      exact order.passed other passed

/-- A call that goes on checks the emission order or calms it. -/
theorem resume_calms {state after : State} (taken : state.resume id = some after) :
    after = state.waitForEarlierAnnouncedCalls id ∨ Calms state after := by
  unfold State.resume at taken
  dsimp only at taken
  split at taken
  next => exact Or.inl (Option.some.inj taken).symm
  next cleared =>
    split at taken <;> cases taken
    · exact Or.inr (waitForMutationsToDrain_calms state id)
    · exact Or.inr (acquireLock_calms cleared)
  next =>
    split at taken <;> cases taken
    · exact Or.inr (enterMutation_calms state id)
    · exact Or.inr (enterCommand_calms state id)
  next =>
    split at taken <;> cases taken <;>
      exact Or.inr (.setPhase id (by simp) (by simp) (by simp))
  next =>
    cases taken
    exact Or.inr (.setPhase id (by simp) (by simp) (by simp))
  next => cases taken

/-- A step that puts a call before one that has already passed, or moves one that waits. -/
def Overtakes (state : State) : Event → Prop
  | .announce callId index kind _ announcer =>
      ∃ id, (state.calls id).announcer = announcer ∧
        ((state.calls id).callId = some callId ∧ ((state.calls id).Passed ∨
            ∃ position, (state.calls id).phase = .emissionWait position ∧ position ≠ index) ∨
          (state.calls id).Passed ∧ (state.calls id).awaited = kind ∧
            ∃ own, state.announcement? (state.calls id).callId announcer = some own ∧
              index < own.index)
  | .startCommand _ callId announcer =>
      ∃ id command own, state.announcement? callId announcer = some command ∧
        command.kind = .other ∧ command.joined = false ∧ (state.calls id).Passed ∧
        (state.calls id).announcer = announcer ∧ (state.calls id).awaited = .shell ∧
        state.announcement? (state.calls id).callId announcer = some own ∧
        command.index < own.index
  | _ => False

theorem changeWave_fades (state : State) (batchId announcer : Option String) :
    Fades state.announcements (state.changeWave batchId announcer).announcements := by
  unfold State.changeWave
  split
  · exact .eraseAll _ _
  · exact .refl _

theorem changeWave_calls (state : State) (batchId announcer : Option String) :
    (state.changeWave batchId announcer).calls = state.calls := by
  unfold State.changeWave
  split <;> rfl

/-- The announcements after one more. -/
theorem announce_announcements (state : State) (callId : String) (index : Nat)
    (kind : ToolCallKind) (batchId announcer : Option String) {key : OwnedCallId}
    (found : (state.announce callId index kind batchId announcer).announcements.get? key =
      some announcement) :
    key = (callId, announcer) ∧
        announcement = { index, kind, joined := false, batchId, announcer } ∨
      ∃ earlier, state.announcements.get? key = some earlier ∧
        earlier.index = announcement.index ∧ earlier.announcer = announcement.announcer ∧
        (announcement.joined = false → earlier.joined = false ∧
          earlier.kind = announcement.kind) := by
  change ((state.changeWave batchId announcer).announcements.set (callId, announcer) _).get? key =
    some announcement at found
  rw [OrderedMap.get?_set] at found
  split at found
  next here =>
    cases found
    exact Or.inl ⟨here, rfl⟩
  next => exact Or.inr (changeWave_fades state batchId announcer key announcement found)

variable {name owner : Option String}

/-- The announcement of a call after one more is the new one or its own. -/
theorem announce_looked (state : State) (callId : String) (index : Nat)
    (kind : ToolCallKind) (batchId announcer : Option String)
    (found : (state.announce callId index kind batchId announcer).announcement? name owner =
      some announcement) :
    name = some callId ∧ owner = announcer ∧ announcement.index = index ∨
      ∃ earlier, state.announcement? name owner = some earlier ∧
        earlier.index = announcement.index ∧ earlier.announcer = announcement.announcer := by
  cases name with
  | none => cases found
  | some text =>
      rcases announce_announcements state callId index kind batchId announcer found with
        ⟨here, new⟩ | ⟨earlier, present, position, owner, -⟩
      · cases here
        exact Or.inl ⟨rfl, rfl, by rw [new]⟩
      · exact Or.inr ⟨earlier, present, position, owner⟩

/-- Where the calls stand after one more announcement. -/
theorem announce_calls (state : State) (callId : String) (index : Nat) (kind : ToolCallKind)
    (batchId announcer : Option String) (id : Nat) :
    let after := state.announce callId index kind batchId announcer
    (after.calls id = state.calls id ∧
        ∀ position, (state.calls id).phase = .emissionWait position →
          after.hasPendingCallBefore position (state.calls id).awaited
            (state.calls id).announcer = true) ∨
      ∃ position, (state.calls id).phase = .emissionWait position ∧
        after.hasPendingCallBefore position (state.calls id).awaited (state.calls id).announcer =
          false ∧ after.calls id = { state.calls id with phase := .cleared } := by
  intro after
  obtain ⟨recorded, released, calls⟩ : ∃ recorded : State,
      recorded.releaseClearedWaiters = after ∧ recorded.calls = state.calls :=
    ⟨_, rfl, changeWave_calls state batchId announcer⟩
  have stands := releaseClearedWaiters_calls recorded id
  rw [calls] at stands
  have pendings : ∀ position kind owner, recorded.hasPendingCallBefore position kind owner =
      after.hasPendingCallBefore position kind owner := by
    intro position kind owner
    rw [← released]
    rfl
  simp only [pendings] at stands
  rw [released] at stands
  exact stands

theorem WaitInvariant.announce (waits : WaitInvariant state) (callId : String)
    (index : Nat) (kind : ToolCallKind) (batchId announcer : Option String)
    (still : ∀ id position, (state.calls id).phase = .emissionWait position →
      (state.calls id).callId = some callId → (state.calls id).announcer = announcer →
      position = index) :
    WaitInvariant (state.announce callId index kind batchId announcer) := by
  have stands := announce_calls state callId index kind batchId announcer
  refine ⟨?_, ?_, ?_⟩
  · intro key announcement found
    rcases announce_announcements state callId index kind batchId announcer found with
      ⟨here, new⟩ | ⟨earlier, present, -, owner, -⟩
    · rw [here, new]
    · rw [← owner]
      exact waits.owned key earlier present
  · intro id position waiting announcement found
    rcases stands id with ⟨kept, -⟩ | ⟨_, -, -, cleared⟩
    · rw [kept] at waiting found
      rcases announce_looked state callId index kind batchId announcer found with
        ⟨name, owner, new⟩ | ⟨earlier, present, same, -⟩
      · rw [new]
        exact (still id position waiting name owner).symm
      · rw [← same]
        exact waits.positioned id position waiting earlier present
    · rw [cleared] at waiting
      cases waiting
  · intro id position waiting
    rcases stands id with ⟨kept, pending⟩ | ⟨_, -, -, cleared⟩
    · rw [kept] at waiting ⊢
      exact pending position waiting
    · rw [cleared] at waiting
      cases waiting

theorem OrderInvariant.announce (order : OrderInvariant state) (callId : String) (index : Nat)
    (kind : ToolCallKind) (batchId announcer : Option String)
    (timely : ¬Overtakes state (.announce callId index kind batchId announcer)) :
    OrderInvariant (state.announce callId index kind batchId announcer) := by
  have still : ∀ id position, (state.calls id).phase = .emissionWait position →
      (state.calls id).callId = some callId → (state.calls id).announcer = announcer →
      position = index := by
    intro id position waiting name owner
    by_contra different
    exact timely ⟨id, owner, Or.inl ⟨name, Or.inr ⟨position, waiting, different⟩⟩⟩
  have waits := order.toWaitInvariant.announce callId index kind batchId announcer still
  refine ⟨waits, ?_⟩
  rintro id passed ⟨own, found, pending⟩
  have owner := waits.ownedBy found
  rcases announce_calls state callId index kind batchId announcer id with
    ⟨kept, -⟩ | ⟨position, waiting, clear, cleared⟩
  · rw [kept] at passed found pending owner
    rcases announce_looked state callId index kind batchId announcer found with
      ⟨name, here, -⟩ | ⟨earlier, present, position, owner'⟩
    · exact timely ⟨id, here, Or.inl ⟨name, Or.inl passed⟩⟩
    · rw [hasPendingCallBefore_eq_true] at pending
      obtain ⟨key, other, listed, named, awaited, joined, before⟩ := pending
      rcases announce_announcements state callId index kind batchId announcer listed with
        ⟨-, new⟩ | ⟨source, present', position', owner'', rest⟩
      · rw [new] at named awaited before
        have here : (state.calls id).announcer = announcer := owner.symm.trans named.symm
        rw [here] at present
        exact timely ⟨id, here, Or.inr ⟨passed, awaited.symm, earlier, present,
          by rw [position]; exact before⟩⟩
      · refine order.passed id passed ⟨earlier, present, ?_⟩
        rw [hasPendingCallBefore_eq_true]
        obtain ⟨joined', awaited'⟩ := rest joined
        exact ⟨key, source, present', by rw [owner'', named, owner'], awaited'.trans awaited,
          joined', by omega⟩
  · rw [cleared] at found pending owner
    have same : own.index = position := by
      rcases announce_looked state callId index kind batchId announcer found with
        ⟨name, here, new⟩ | ⟨earlier, present, same, -⟩
      · rw [new]
        exact (still id position waiting name here).symm
      · rw [← same]
        exact order.positioned id position waiting earlier present
    change State.hasPendingCallBefore _ own.index (state.calls id).awaited own.announcer = true
      at pending
    rw [same, owner] at pending
    rw [clear] at pending
    cases pending

/-- What declaring a command run does to the announcements. -/
theorem declare_announcements (state : State) (callId announcer : Option String) :
    ((state.declareAnnouncedShellRun callId announcer).1.calls = state.calls) ∧
      (∀ key announcement,
        (state.declareAnnouncedShellRun callId announcer).1.announcements.get? key =
          some announcement →
        ∃ earlier, state.announcements.get? key = some earlier ∧
          earlier.index = announcement.index ∧ earlier.announcer = announcement.announcer ∧
          earlier.joined = announcement.joined ∧
          (earlier.kind = announcement.kind ∨ state.announcement? callId announcer = some earlier ∧
            earlier.kind = .other ∧ announcement.kind = .shell)) ∧
      ∀ key announcement, state.announcements.get? key = some announcement →
        ∃ later, (state.declareAnnouncedShellRun callId announcer).1.announcements.get? key =
            some later ∧
          later.index = announcement.index ∧ later.announcer = announcement.announcer ∧
          later.joined = announcement.joined ∧
          (announcement.kind ≠ .other → later.kind = announcement.kind) := by
  have same : ∀ key announcement, state.announcements.get? key = some announcement →
      ∃ later, state.announcements.get? key = some later ∧
        later.index = announcement.index ∧ later.announcer = announcement.announcer ∧
        later.joined = announcement.joined ∧
        (announcement.kind ≠ .other → later.kind = announcement.kind) :=
    fun _ announcement found => ⟨announcement, found, rfl, rfl, rfl, fun _ => rfl⟩
  unfold State.declareAnnouncedShellRun
  split
  · exact ⟨rfl, fun _ announcement found => ⟨announcement, found, rfl, rfl, rfl, Or.inl rfl⟩, same⟩
  next command found =>
    split
    · exact ⟨rfl, fun _ announcement found => ⟨announcement, found, rfl, rfl, rfl, Or.inl rfl⟩,
        same⟩
    next declared =>
      cases callId with
      | none => cases found
      | some text =>
          have own : state.announcements.get? (text, announcer) = some command := found
          refine ⟨rfl, fun key announcement present => ?_, fun key announcement present => ?_⟩
          · change (state.announcements.set (text, announcer) _).get? key = _ at present
            rw [OrderedMap.get?_set] at present
            split at present
            next here =>
              cases present
              rw [here]
              refine ⟨command, found, rfl, rfl, rfl, ?_⟩
              cases kind : command.kind with
              | mutation => exact absurd kind declared
              | shell => exact Or.inl rfl
              | other => exact Or.inr ⟨found, rfl, rfl⟩
            next => exact ⟨announcement, present, rfl, rfl, rfl, Or.inl rfl⟩
          · change ∃ later, (state.announcements.set (text, announcer) _).get? key = some later ∧ _
            rw [OrderedMap.get?_set]
            split
            next here =>
              rw [here, own] at present
              cases present
              refine ⟨_, rfl, rfl, rfl, rfl, fun known => ?_⟩
              cases kind : command.kind with
              | mutation => exact absurd kind declared
              | shell => rfl
              | other => exact absurd kind known
            next => exact ⟨announcement, present, rfl, rfl, rfl, fun _ => rfl⟩

theorem declare_looked (state : State) (callId announcer : Option String)
    (found : (state.declareAnnouncedShellRun callId announcer).1.announcement? name owner =
      some announcement) :
    ∃ earlier, state.announcement? name owner = some earlier ∧
      earlier.index = announcement.index ∧ earlier.announcer = announcement.announcer ∧
      earlier.joined = announcement.joined := by
  cases name with
  | none => cases found
  | some text =>
      obtain ⟨earlier, present, position, owner', joined, -⟩ :=
        (declare_announcements state callId announcer).2.1 _ _ found
      exact ⟨earlier, present, position, owner', joined⟩

theorem WaitInvariant.declare (waits : WaitInvariant state) (callId announcer : Option String) :
    WaitInvariant (state.declareAnnouncedShellRun callId announcer).1 := by
  obtain ⟨calls, earlier, later⟩ := declare_announcements state callId announcer
  refine ⟨?_, ?_, ?_⟩
  · intro key announcement found
    obtain ⟨source, present, -, owner, -⟩ := earlier key announcement found
    rw [← owner]
    exact waits.owned key source present
  · intro id position waiting announcement found
    rw [calls] at waiting found
    obtain ⟨source, present, same, -⟩ := declare_looked state callId announcer found
    rw [← same]
    exact waits.positioned id position waiting source present
  · intro id position waiting
    rw [calls] at waiting ⊢
    have pending := waits.waiting id position waiting
    rw [hasPendingCallBefore_eq_true] at pending ⊢
    obtain ⟨key, announcement, present, owner, kind, joined, before⟩ := pending
    obtain ⟨target, present', same, owner', joined', known⟩ := later key announcement present
    refine ⟨key, target, present', owner'.trans owner, ?_, joined'.trans joined, by omega⟩
    have awaited : announcement.kind ≠ .other := by
      rw [kind]
      unfold Call.awaited
      split <;> simp
    exact (known awaited).trans kind

theorem OrderInvariant.declare (order : OrderInvariant state)
    (timely : ¬Overtakes state (.startCommand id callId announcer)) :
    OrderInvariant (state.declareAnnouncedShellRun callId announcer).1 := by
  obtain ⟨calls, stored, -⟩ := declare_announcements state callId announcer
  refine ⟨order.toWaitInvariant.declare callId announcer, ?_⟩
  rintro other passed ⟨own, found, pending⟩
  rw [calls] at passed found pending
  obtain ⟨earlier, present, position, owner, -⟩ := declare_looked state callId announcer found
  have mine := order.ownedBy present
  rw [hasPendingCallBefore_eq_true] at pending
  obtain ⟨key, announcement, listed, named, kind, joined, before⟩ := pending
  obtain ⟨source, listed', position', owner', joined', same⟩ := stored key announcement listed
  rcases same with same | ⟨command, undeclared, shell⟩
  · refine order.passed other passed ⟨earlier, present, ?_⟩
    rw [hasPendingCallBefore_eq_true]
    exact ⟨key, source, listed', by rw [owner', named, owner], same.trans kind,
      joined'.trans joined, by omega⟩
  · have here : (state.calls other).announcer = announcer := by
      rw [← mine, owner, ← named, ← owner', order.ownedBy command]
    refine timely ⟨other, source, earlier, command, undeclared, joined'.trans joined, passed, here,
      kind.symm.trans shell, ?_, by omega⟩
    rw [← here]
    exact present

/-- The call of a command run before it checks the emission order. -/
theorem startCommand_declared (state : State) (id : Nat) (callId announcer : Option String) :
    ∃ called, state.startCommand id callId announcer = called.waitForEarlierAnnouncedCalls id ∧
      Calms (state.declareAnnouncedShellRun callId announcer).1 called := by
  unfold State.startCommand
  dsimp only
  generalize (state.declareAnnouncedShellRun callId announcer).1 = known
  generalize (state.declareAnnouncedShellRun callId announcer).2 = group
  refine ⟨_, rfl, ?_⟩
  have called : InOrder (known.calls id) { idleCall with callId, announcer, group, queued := true } :=
    .leave (by simp [Call.Passed, idleCall]) (by simp [idleCall])
  cases callId with
  | none => exact Calms.setCall called
  | some text => exact (Calms.setCall called).trans (.of_calls rfl fun _ => .refl _)

/-- Whether a step announces a call, calls a command run or may check the emission order. -/
def Event.ConcernsOrder : Event → Prop
  | .announce _ _ _ _ _ => True
  | .startCommand _ _ _ => True
  | .resume _ => True
  | _ => False

variable {event : Event}

/-- Every other step lets nobody wait for more than before. -/
theorem calms_step (taken : Step before event after) (other : ¬event.ConcernsOrder) :
    Calms before after := by
  unfold Step at taken
  cases event with
  | announce => exact absurd trivial other
  | startCommand => exact absurd trivial other
  | retire callId announcer =>
      cases taken
      exact retire_calms before callId announcer
  | startMutation id callId announcer =>
      simp only [next, Option.ite_none_right_eq_some, Option.some.injEq] at taken
      obtain ⟨-, rfl⟩ := taken
      have called : InOrder (before.calls id)
          { idleCall with callId, announcer, phase := .registering } :=
        .leave (by simp [Call.Passed]) (by simp)
      exact (Calms.setCall called).trans (.of_calls rfl fun _ => .refl _)
  | register id key =>
      simp only [next, Option.ite_none_right_eq_some, Option.some.injEq] at taken
      obtain ⟨-, rfl⟩ := taken
      have placed : InOrder (before.calls id) { before.calls id with
          phase := .registered
          key := some key
          currentQueue := (before.queues key).getD [] } :=
        .leave (by simp [Call.Passed]) (by simp)
      exact (Calms.setCall placed).trans (.of_calls rfl fun _ => .refl _)
  | skipRegistration id =>
      simp only [next, Option.ite_none_right_eq_some] at taken
      obtain ⟨-, taken⟩ := taken
      have skipped : Calms before { before with registrations := before.registrations.tail } :=
        .of_calls rfl fun _ => .refl _
      split at taken <;> cases taken
      · exact skipped.trans (.setPhase id (by simp) (by simp) (by simp))
      · exact skipped
  | loseRegistration id =>
      simp only [next, Option.ite_none_right_eq_some, Option.some.injEq] at taken
      obtain ⟨-, rfl⟩ := taken
      exact .setPhase id (by simp) (by simp) (by simp)
  | resume => exact absurd trivial other
  | settlePath id =>
      simp only [next, Option.ite_none_right_eq_some, Option.some.injEq] at taken
      obtain ⟨-, rfl⟩ := taken
      exact .setPhase id (by simp) (by simp) (by simp)
  | finish id =>
      simp only [next, Option.ite_none_right_eq_some, Option.some.injEq] at taken
      obtain ⟨-, rfl⟩ := taken
      exact finish_calms before id
  | handOff callId announcer =>
      cases taken
      exact releaseHold_calms before callId announcer
  | abort id =>
      simp only [next, Option.ite_none_right_eq_some, Option.some.injEq] at taken
      obtain ⟨-, rfl⟩ := taken
      exact abort_calms before id

/-- Every step keeps what the waiting calls wait for, when no waiting call is announced anew. -/
theorem waits_step (waits : WaitInvariant before)
    (taken : Step before event after)
    (still : ∀ callId index kind batchId announcer,
      event = .announce callId index kind batchId announcer →
      ∀ id position, (before.calls id).phase = .emissionWait position →
        (before.calls id).callId = some callId → (before.calls id).announcer = announcer →
        position = index) : WaitInvariant after := by
  cases event with
  | announce callId index kind batchId announcer =>
      cases taken
      exact waits.announce callId index kind batchId announcer (still _ _ _ _ _ rfl)
  | startCommand id callId announcer =>
      simp only [Step, next, Option.ite_none_right_eq_some, Option.some.injEq] at taken
      obtain ⟨-, rfl⟩ := taken
      obtain ⟨called, same, calms⟩ := startCommand_declared before id callId announcer
      rw [same]
      exact (calms.waits (waits.declare callId announcer)).check id
  | resume id =>
      rcases resume_calms taken with rfl | calms
      · exact waits.check id
      · exact calms.waits waits
  | _ => exact (calms_step taken (fun concerns => concerns)).waits waits

/-- Every step that overtakes nobody keeps the emission order. -/
theorem order_step (order : OrderInvariant before) (taken : Step before event after)
    (timely : ¬Overtakes before event) : OrderInvariant after := by
  cases event with
  | announce callId index kind batchId announcer =>
      cases taken
      exact order.announce callId index kind batchId announcer timely
  | startCommand id callId announcer =>
      simp only [Step, next, Option.ite_none_right_eq_some, Option.some.injEq] at taken
      obtain ⟨-, rfl⟩ := taken
      obtain ⟨called, same, calms⟩ := startCommand_declared before id callId announcer
      rw [same]
      exact (calms.order (order.declare timely)).check id
  | resume id =>
      rcases resume_calms taken with rfl | calms
      · exact order.check id
      · exact calms.order order
  | _ => exact (calms_step taken (fun concerns => concerns)).order order

end PiAdaptative.MutationLock
