import PiAdaptative.MutationLock.Holders

/-!
# What one step can do

Every step moves one call and may end the waits of others.  The moves of a call are listed once;
the books of the lock and every fact about single calls follow from the list.
-/

namespace PiAdaptative.MutationLock

/-- A change of announcements: some calls need not wait for earlier calls any more. -/
structure Woken (before after : State) : Prop where
  calls : ∀ id, after.calls id = before.calls id ∨
    ∃ index, (before.calls id).phase = .emissionWait index ∧
      after.calls id = { before.calls id with phase := .cleared }
  holders : after.holders = before.holders
  waiters : after.waiters = before.waiters
  registrations : after.registrations = before.registrations
  queues : after.queues = before.queues
  registered : after.registered = before.registered
  exclusiveHolds : after.exclusiveHolds = before.exclusiveHolds

variable {id : Nat}

namespace Woken

variable {before after : State}

theorem refl (state : State) : Woken state state :=
  ⟨fun _ => Or.inl rfl, rfl, rfl, rfl, rfl, rfl, rfl⟩

theorem passive (woken : Woken before after) (id : Nat) :
    Passive (before.calls id) (after.calls id) := by
  rcases woken.calls id with same | ⟨index, waiting, cleared⟩
  · rw [same]
    exact .same _
  · rw [cleared]
    exact .cleared waiting

/-- A call that does not wait for earlier calls is left alone. -/
theorem eq (woken : Woken before after)
    (elsewhere : ∀ index, (before.calls id).phase ≠ .emissionWait index) :
    after.calls id = before.calls id := by
  rcases woken.calls id with same | ⟨index, waiting, -⟩
  · exact same
  · exact absurd waiting (elsewhere index)

theorem lock (woken : Woken before after) (lock : LockInvariant before) :
    LockInvariant after := by
  refine lock.recast woken.holders woken.waiters fun id => ?_
  rcases woken.calls id with same | ⟨index, waiting, cleared⟩
  · rw [same]
    exact .refl _ _
  · rw [cleared]
    exact ⟨rfl, fun _ => rfl, by simp [waiting], by simp⟩

end Woken

theorem releaseClearedWaiters_woken (state : State) :
    Woken state state.releaseClearedWaiters := by
  refine ⟨fun id => ?_, rfl, rfl, rfl, rfl, rfl, rfl⟩
  simp only [State.releaseClearedWaiters]
  split
  next index waiting =>
    split
    · exact Or.inl rfl
    · exact Or.inr ⟨index, waiting, rfl⟩
  next => exact Or.inl rfl

/-- Announcements change before waits end. -/
theorem Woken.of_announcements {state changed : State} (calls : changed.calls = state.calls)
    (holders : changed.holders = state.holders) (waiters : changed.waiters = state.waiters)
    (registrations : changed.registrations = state.registrations)
    (queues : changed.queues = state.queues) (registered : changed.registered = state.registered)
    (exclusiveHolds : changed.exclusiveHolds = state.exclusiveHolds) :
    Woken state changed.releaseClearedWaiters := by
  have woken := releaseClearedWaiters_woken changed
  exact {
    calls := calls ▸ woken.calls
    holders := woken.holders.trans holders
    waiters := woken.waiters.trans waiters
    registrations := woken.registrations.trans registrations
    queues := woken.queues.trans queues
    registered := woken.registered.trans registered
    exclusiveHolds := woken.exclusiveHolds.trans exclusiveHolds }

theorem announce_woken (state : State) (callId : String) (index : Nat) (kind : ToolCallKind)
    (batchId announcer : Option String) :
    Woken state (state.announce callId index kind batchId announcer) := by
  unfold State.announce State.changeWave
  split <;> exact .of_announcements rfl rfl rfl rfl rfl rfl rfl

theorem retire_woken (state : State) (callId : String) (announcer : Option String) :
    Woken state (state.retire callId announcer) := by
  unfold State.retire
  split
  · exact .of_announcements rfl rfl rfl rfl rfl rfl rfl
  · exact .refl _

theorem markAnnouncementJoined_woken (state : State) (callId announcer : Option String) :
    Woken state (state.markAnnouncementJoined callId announcer) := by
  unfold State.markAnnouncementJoined State.setAnnouncement
  split
  · exact .refl _
  · split
    · exact .refl _
    · split <;> exact .of_announcements rfl rfl rfl rfl rfl rfl rfl

theorem setAnnouncement_woken (state : State) (callId announcer : Option String)
    (announcement : ToolCallAnnouncement) :
    Woken state (state.setAnnouncement callId announcer announcement) := by
  unfold State.setAnnouncement
  split
  · exact .refl _
  · exact ⟨fun _ => Or.inl rfl, rfl, rfl, rfl, rfl, rfl, rfl⟩

/-- What only some steps can do to a call. -/
inductive Right where
  | place
  | turn
  | check
  | enter (id : Nat)
  | callMutation (id : Nat)
  | callCommand (id : Nat)
  | handOff (id : Nat)
  | abort (id : Nat)

/-- What one step with the `permitted` rights can do to the call `id`. -/
inductive Move (permitted : Right → Prop) (id : Nat) : Call → Call → Prop
  | passive {before after : Call} (moved : Passive before after) : Move permitted id before after
  | startMutation {before : Call} (callId announcer : Option String)
      (right : permitted (.callMutation id)) (idle : before.phase = .idle) :
      Move permitted id before { idleCall with callId, announcer, phase := .registering }
  | startCommand {before : Call} (callId announcer : Option String) (group : LockGroup)
      (phase : Phase) (right : permitted (.callCommand id)) (idle : before.phase = .idle)
      (command : group ≠ .mutation)
      (waits : phase = .cleared ∨ ∃ index, phase = .emissionWait index) :
      Move permitted id before { idleCall with callId, announcer, group, queued := true, phase }
  | register {before : Call} (key : String) (currentQueue : List Nat) (right : permitted .place)
      (registering : before.phase = .registering) :
      Move permitted id before { before with phase := .registered, key := some key, currentQueue }
  | fail {before : Call}
      (reason : before.phase = .registering ∨ before.aborted = true ∧
        (before.phase = .registered ∨ before.phase = .cleared ∨ before.phase = .pathReady ∨
          before.phase = .admitted ∧ before.group = .mutation)) :
      Move permitted id before { before with phase := .failing }
  | check {before : Call} (phase : Phase) (right : permitted .check) (registered : before.phase = .registered)
      (waits : phase = .cleared ∨ ∃ index, phase = .emissionWait index ∧ before.aborted = false) :
      Move permitted id before { before with phase }
  | takeLock {before : Call} (cleared : before.phase = .cleared) (running : before.aborted = false) :
      Move permitted id before { before with phase := .admitted, holdsLock := true }
  | queue {before : Call} (cleared : before.phase = .cleared) (running : before.aborted = false) :
      Move permitted id before { before with phase := .lockQueue }
  | drop {before : Call} (queued : Bool) (phase : Phase) (command : before.group ≠ .mutation)
      (lockless : before.lockless = true)
      (joined : before.phase = .cleared ∨ before.phase = .admitted)
      (goes : phase = .drained ∨ phase = .drainWait ∧ before.aborted = false ∨
        phase = .failing ∧ before.aborted = true) :
      Move permitted id before { before with queued, holdsLock := false, phase }
  | enter {before : Call} (right : permitted (.enter id)) (admitted : before.phase = .admitted)
      (mutation : before.group = .mutation) (running : before.aborted = false) :
      Move permitted id before { before with phase := .pathWait }
  | run {before : Call} (admitted : before.phase = .admitted) (command : before.group ≠ .mutation)
      (holds : before.lockless = false) : Move permitted id before { before with queued := false, phase := .body }
  | settle {before : Call} (right : permitted .turn) (waiting : before.phase = .pathWait) :
      Move permitted id before { before with phase := .pathReady }
  | turn {before : Call} (ready : before.phase = .pathReady) (running : before.aborted = false) :
      Move permitted id before { before with phase := .body }
  | runLockless {before : Call} (drained : before.phase = .drained) :
      Move permitted id before { before with phase := .body }
  | finish {before : Call} (finished : Bool)
      (leaves : before.phase = .body ∨ before.phase = .failing) :
      Move permitted id before { before with phase := .ended, holdsLock := false, done := finished }
  | handOff {before woken : Call} (right : permitted (.handOff id)) (moved : Passive before woken)
      (still : woken.holdsLock = before.holdsLock) (command : before.group ≠ .mutation)
      (queued : before.queued = true) : Move permitted id before { woken with done := true, lockless := true }
  /-- A command run is handed off while it holds the lock, or has nothing left to release. -/
  | release {before : Call} (command : before.group ≠ .mutation) (joined : before.queued = false)
      (phase : before.holdsLock = true → before.phase = .body) :
      Move permitted id before { before with done := true, holdsLock := false }
  | abandon {before : Call} (right : permitted (.abort id))
      (waiting : before.phase = .registering ∨ (∃ index, before.phase = .emissionWait index) ∨
        before.phase = .lockQueue ∨ before.phase = .pathWait ∨ before.phase = .drainWait) :
      Move permitted id before { before with aborted := true, phase := .failing }
  | abort {before : Call} (right : permitted (.abort id)) (elsewhere : before.phase ≠ .registering ∧
        (∀ index, before.phase ≠ .emissionWait index) ∧ before.phase ≠ .lockQueue ∧
        before.phase ≠ .pathWait ∧ before.phase ≠ .drainWait) :
      Move permitted id before { before with aborted := true }

variable {permitted : Right → Prop}

/-- Every move keeps what the phase of a call says. -/
theorem Move.fits {before after : Call} (moved : Move permitted id before after)
    (fits : before.Fits) : after.Fits := by
  cases moved with
  | passive moved => exact moved.fits fits
  | startMutation callId announcer _ idle => exact ⟨rfl, rfl⟩
  | startCommand callId announcer group phase _ idle command waits =>
      rcases waits with rfl | ⟨index, rfl⟩ <;> exact ⟨rfl, fun _ => rfl⟩
  | register key queue _ registering =>
      simp only [Call.Fits, registering] at fits ⊢
      exact fits
  | fail reason =>
      rcases reason with phase | ⟨-, phase | phase | phase | ⟨phase, mutation⟩⟩
      · simp only [Call.Fits, phase] at fits ⊢
        exact fun _ => fits.1
      · simp only [Call.Fits, phase] at fits ⊢
        exact fun _ => fits.1
      · simp only [Call.Fits, phase] at fits ⊢
        exact fun _ => fits.1
      · simp only [Call.Fits, phase] at fits ⊢
        exact fun command => absurd fits.2 command
      · exact fun command => absurd mutation command
  | check phase _ registered waits =>
      simp only [Call.Fits, registered] at fits
      rcases waits with rfl | ⟨index, rfl, -⟩ <;>
        exact ⟨fits.1, fun command => absurd fits.2 command⟩
  | takeLock cleared running =>
      simp only [Call.Fits, cleared] at fits ⊢
      exact ⟨trivial, fits.2⟩
  | queue cleared running =>
      simp only [Call.Fits, cleared] at fits ⊢
      exact fits
  | drop queued phase command lockless joined goes =>
      rcases goes with rfl | ⟨rfl, -⟩ | ⟨rfl, -⟩
      · exact ⟨rfl, command⟩
      · exact ⟨rfl, command⟩
      · exact fun _ => rfl
  | enter _ admitted mutation running =>
      simp only [Call.Fits, admitted] at fits ⊢
      exact ⟨fits.1, mutation⟩
  | run admitted command holds => exact fun mutation => absurd mutation command
  | settle _ waiting =>
      simp only [Call.Fits, waiting] at fits ⊢
      exact fits
  | turn ready running =>
      simp only [Call.Fits, ready] at fits ⊢
      exact fun _ => fits.1
  | runLockless drained =>
      simp only [Call.Fits, drained] at fits ⊢
      exact fun mutation => absurd mutation fits.2
  | finish finished leaves => rfl
  | handOff _ moved still command queued =>
      have woken := moved.fits fits
      exact woken
  | release command joined phase =>
      cases holds : before.holdsLock with
      | true =>
          simp only [Call.Fits, phase holds]
          exact fun mutation => absurd mutation command
      | false =>
          rw [← holds]
          exact fits
  | abandon _ waiting =>
      rcases waiting with phase | ⟨index, phase⟩ | phase | phase | phase <;>
        simp only [Call.Fits, phase] at fits ⊢
      · exact fun _ => fits.1
      · exact fun _ => fits.1
      · exact fun _ => fits.1
      · exact fun command => absurd fits.2 command
      · exact fun _ => fits.1
  | abort _ elsewhere =>
      exact fits

structure LockOnly (before after : State) : Prop where
  registrations : after.registrations = before.registrations
  queues : after.queues = before.queues
  registered : after.registered = before.registered
  announcements : after.announcements = before.announcements
  announcedBatchIds : after.announcedBatchIds = before.announcedBatchIds
  exclusiveHolds : after.exclusiveHolds = before.exclusiveHolds

theorem LockOnly.refl (state : State) : LockOnly state state := ⟨rfl, rfl, rfl, rfl, rfl, rfl⟩

theorem LockOnly.trans {first second third : State} (earlier : LockOnly first second)
    (later : LockOnly second third) : LockOnly first third where
  registrations := later.registrations.trans earlier.registrations
  queues := later.queues.trans earlier.queues
  registered := later.registered.trans earlier.registered
  announcements := later.announcements.trans earlier.announcements
  announcedBatchIds := later.announcedBatchIds.trans earlier.announcedBatchIds
  exclusiveHolds := later.exclusiveHolds.trans earlier.exclusiveHolds

theorem setCall_lockOnly (state : State) (id : Nat) (call : Call) :
    LockOnly state (state.setCall id call) := ⟨rfl, rfl, rfl, rfl, rfl, rfl⟩

theorem pumpFrom_lockOnly (waiting : List Nat) (state : State) :
    LockOnly state (State.pumpFrom waiting state) := by
  induction waiting generalizing state with
  | nil => exact ⟨rfl, rfl, rfl, rfl, rfl, rfl⟩
  | cons head rest ih =>
      unfold State.pumpFrom
      split
      · have admitted : LockOnly state (state.admitCall head) := ⟨rfl, rfl, rfl, rfl, rfl, rfl⟩
        exact admitted.trans (ih (state.admitCall head))
      · exact ⟨rfl, rfl, rfl, rfl, rfl, rfl⟩

theorem releaseLock_lockOnly (state : State) (id : Nat) :
    LockOnly state (state.releaseLock id) := by
  unfold State.releaseLock State.pumpLock
  dsimp only
  split
  · exact ⟨rfl, rfl, rfl, rfl, rfl, rfl⟩
  · split
    · exact ⟨rfl, rfl, rfl, rfl, rfl, rfl⟩
    · refine LockOnly.trans ?_ (pumpFrom_lockOnly _ _)
      split <;> exact ⟨rfl, rfl, rfl, rfl, rfl, rfl⟩

theorem acquireLock_lockOnly (state : State) (id : Nat) :
    LockOnly state (state.acquireLock id) := by
  unfold State.acquireLock
  split
  · exact ⟨rfl, rfl, rfl, rfl, rfl, rfl⟩
  · split <;> exact ⟨rfl, rfl, rfl, rfl, rfl, rfl⟩

theorem waitForMutationsToDrain_lockOnly (state : State) (id : Nat) :
    LockOnly state (state.waitForMutationsToDrain id) := by
  unfold State.waitForMutationsToDrain
  split
  · exact ⟨rfl, rfl, rfl, rfl, rfl, rfl⟩
  · split <;> exact ⟨rfl, rfl, rfl, rfl, rfl, rfl⟩

section Lock

variable {permitted : Right → Prop} {state : State}

variable {call : Call}

theorem setCall_moves (moved : Move permitted id (state.calls id) call) (other : Nat) :
    Move permitted other (state.calls other) ((state.setCall id call).calls other) := by
  by_cases here : other = id
  · subst here
    rw [setCall_self]
    exact moved
  · rw [setCall_of_ne _ _ here]
    exact .passive (.same _)

/-- A call that has passed the emission order takes the lock or queues for it. -/
theorem acquireLock_spec (lock : LockInvariant state)
    (cleared : (state.calls id).phase = .cleared) (fits : (state.calls id).Fits) :
    LockInvariant (state.acquireLock id) ∧
      ∀ other, Move permitted other (state.calls other) ((state.acquireLock id).calls other) := by
  have outside : (state.calls id).holdsLock = false := by
    simp only [Call.Fits, cleared] at fits
    exact fits.1
  have unqueued : id ∉ state.waiters := by
    rw [lock.queued, cleared]
    simp
  unfold State.acquireLock
  split
  next aborted =>
    refine ⟨lock.setCall ⟨rfl, fun _ => rfl, ?_, ?_⟩, setCall_moves (.fail ?_)⟩
    · simp [cleared]
    · simp
    · exact Or.inr ⟨aborted, Or.inr (Or.inl cleared)⟩
  next running =>
    rw [Bool.not_eq_true] at running
    split
    next joins =>
      obtain ⟨empty, joins⟩ := joins
      have books := lock.toLockBooks.admitted outside joins
      refine ⟨⟨?_, ?_⟩, setCall_moves (.takeLock cleared running)⟩
      · rw [List.erase_of_not_mem unqueued] at books
        exact books
      · intro head rest first
        rw [show state.waiters = head :: rest from first] at empty
        cases empty
    next full =>
      have books : LockBooks { state.setPhase id .lockQueue with
          waiters := state.waiters ++ [id] } (state.waiters ++ [id]) :=
        lock.toLockBooks.enqueue outside (by simp [cleared]) rfl rfl
      refine ⟨⟨books, ?_⟩, setCall_moves (.queue cleared running)⟩
      intro head rest first
      change State.canJoin ((state.setPhase id .lockQueue).calls head).group state.holders = false
      have group : ((state.setPhase id .lockQueue).calls head).group =
          (state.calls head).group := by
        rw [setPhase_calls]
        by_cases here : head = id <;> simp [here]
      rw [group]
      cases waiters : state.waiters with
      | nil =>
          rw [waiters] at first
          obtain rfl : id = head := by simpa using congrArg List.head? first
          simpa [waiters] using full
      | cons present others =>
          rw [waiters, List.cons_append] at first
          obtain rfl : present = head := by simpa using congrArg List.head? first
          exact lock.blocked present others waiters

theorem acquireLock_of_ne (state : State) {id other : Nat} (away : other ≠ id) :
    (state.acquireLock id).calls other = state.calls other := by
  unfold State.acquireLock
  split
  · exact setCall_of_ne _ _ away
  · split
    · exact Function.update_of_ne away _ _
    · exact setCall_of_ne _ _ away

/-- A handed-off command run goes on without the lock. -/
theorem waitForMutationsToDrain_spec (lock : LockInvariant state)
    (unqueued : (state.calls id).phase ≠ .lockQueue) :
    LockInvariant (state.waitForMutationsToDrain id) ∧
      ∃ phase, (phase = .drained ∨ phase = .drainWait ∧ (state.calls id).aborted = false ∨
          phase = .failing ∧ (state.calls id).aborted = true) ∧
        state.waitForMutationsToDrain id = state.setPhase id phase := by
  have unqueues : ∀ phase, phase ≠ .lockQueue → (phase = .drainWait → state.mutationsHold = true) →
      LockInvariant (state.setPhase id phase) := by
    intro phase elsewhere drains
    refine lock.setCall ⟨rfl, fun _ => rfl, ?_, fun drain => Or.inr ?_⟩
    · simp [elsewhere, unqueued]
    · have held := drains drain
      unfold State.mutationsHold at held
      split at held
      · cases held
      next group count holders =>
        rw [holders, of_decide_eq_true held]
        exact ⟨count, rfl⟩
  unfold State.waitForMutationsToDrain
  split
  next =>
    exact ⟨unqueues _ (by simp) (fun impossible => nomatch impossible), _, Or.inl rfl, rfl⟩
  next held =>
    rw [Bool.not_eq_false] at held
    split
    next aborted =>
      exact ⟨unqueues _ (by simp) (fun impossible => nomatch impossible), _,
        Or.inr (Or.inr ⟨rfl, aborted⟩), rfl⟩
    next running =>
      rw [Bool.not_eq_true] at running
      exact ⟨unqueues _ (by simp) (fun _ => held), _, Or.inr (Or.inl ⟨rfl, running⟩), rfl⟩

variable {after : State}

/-- A step that replaces one call outside the queue keeps the books. -/
theorem LockInvariant.update (lock : LockInvariant state)
    (calls : after.calls = Function.update state.calls id call)
    (holders : after.holders = state.holders) (waiters : after.waiters = state.waiters)
    (same : SameForLock state.holders (state.calls id) call) : LockInvariant after := by
  refine lock.recast holders waiters fun other => ?_
  rw [calls, Function.update_apply]
  by_cases here : other = id
  · subst here
    rw [if_pos rfl]
    exact same
  · rw [if_neg here]
    exact .refl _ _

theorem update_moves (calls : after.calls = Function.update state.calls id call)
    (moved : Move permitted id (state.calls id) call) (other : Nat) :
    Move permitted other (state.calls other) (after.calls other) := by
  rw [show after.calls = (state.setCall id call).calls from calls]
  exact setCall_moves moved other

/-- Where a call goes from the check of the emission order. -/
theorem waitForEarlierAnnouncedCalls_spec (state : State) (id : Nat) :
    ∃ phase, (phase = .cleared ∨
        (∃ index, phase = .emissionWait index ∧ (state.calls id).aborted = false) ∨
        phase = .failing ∧ (state.calls id).aborted = true) ∧
      state.waitForEarlierAnnouncedCalls id = state.setPhase id phase := by
  unfold State.waitForEarlierAnnouncedCalls
  dsimp only
  split
  · exact ⟨_, Or.inl rfl, rfl⟩
  · split
    · exact ⟨_, Or.inl rfl, rfl⟩
    · split
      next aborted => exact ⟨_, Or.inr (Or.inr ⟨rfl, aborted⟩), rfl⟩
      next running =>
        rw [Bool.not_eq_true] at running
        exact ⟨_, Or.inr (Or.inl ⟨_, rfl, running⟩), rfl⟩

/-- What the call of a command run changes. -/
theorem startCommand_spec (state : State) (id : Nat) (callId announcer : Option String) :
    ∃ group phase, group ≠ .mutation ∧
      (phase = .cleared ∨ ∃ index, phase = .emissionWait index) ∧
      (state.startCommand id callId announcer).calls = Function.update state.calls id
        { idleCall with callId, announcer, group, queued := true, phase } ∧
      (state.startCommand id callId announcer).holders = state.holders ∧
      (state.startCommand id callId announcer).waiters = state.waiters ∧
      ∀ key present, (state.startCommand id callId announcer).exclusiveHolds key = some present →
        present = id ∧ callId = some key.1 ∧ announcer = key.2 ∨
          state.exclusiveHolds key = some present := by
  obtain ⟨declared, group, split, command, woken⟩ : ∃ declared group,
      state.declareAnnouncedShellRun callId announcer = (declared, group) ∧ group ≠ .mutation ∧
        declared.calls = state.calls ∧ declared.holders = state.holders ∧
        declared.waiters = state.waiters ∧ declared.exclusiveHolds = state.exclusiveHolds := by
    unfold State.declareAnnouncedShellRun State.setAnnouncement
    split
    · exact ⟨_, _, rfl, by simp, rfl, rfl, rfl, rfl⟩
    · split
      · exact ⟨_, _, rfl, by simp, rfl, rfl, rfl, rfl⟩
      · exact ⟨_, _, rfl, by simp, by cases callId <;> exact ⟨rfl, rfl, rfl, rfl⟩⟩
  obtain ⟨calls, holders, waiters, named⟩ := woken
  unfold State.startCommand
  rw [split]
  dsimp only
  generalize started : State.setCall _ id _ = before
  obtain ⟨phase, goes, checked⟩ := waitForEarlierAnnouncedCalls_spec before id
  have here : before.calls id = { idleCall with callId, announcer, group, queued := true } := by
    rw [← started, setCall_self]
  have running : (before.calls id).aborted = false := by rw [here]; rfl
  refine ⟨group, phase, command, ?_, ?_, ?_, ?_, ?_⟩
  · rcases goes with cleared | ⟨index, waits, -⟩ | ⟨-, aborted⟩
    · exact Or.inl cleared
    · exact Or.inr ⟨index, waits⟩
    · rw [running] at aborted
      cases aborted
  · rw [checked, State.setPhase, State.setCall, here, ← started, State.setCall]
    cases callId <;> simp [calls]
  · rw [checked, ← started]
    cases callId <;> exact holders
  · rw [checked, ← started]
    cases callId <;> exact waiters
  · intro key present found
    rw [checked, ← started] at found
    cases callId with
    | none =>
        change declared.exclusiveHolds key = some present at found
        rw [named] at found
        exact Or.inr found
    | some text =>
        change Function.update declared.exclusiveHolds (text, announcer) id key = some present
          at found
        rw [Function.update_apply, named] at found
        split at found
        next here => exact Or.inl ⟨(Option.some.inj found).symm, by simp [here]⟩
        next => exact Or.inr found

/-- A step keeps the books, moves one call as listed, ends waits of others and names no new command
run. -/
structure Keeps (permitted : Right → Prop) (before after : State) (id : Nat) : Prop where
  lock : LockInvariant after
  own : Move permitted id (before.calls id) (after.calls id)
  others : ∀ other, other ≠ id → Passive (before.calls other) (after.calls other)
  named : ∀ key present, after.exclusiveHolds key = some present →
    before.exclusiveHolds key = some present

theorem Keeps.moves {before after : State} (keeps : Keeps permitted before after id) (other : Nat) :
    Move permitted other (before.calls other) (after.calls other) := by
  by_cases here : other = id
  · subst here
    exact keeps.own
  · exact .passive (keeps.others other here)

theorem Woken.named (wakes : Woken state after) (key : OwnedCallId) {present : Nat}
    (found : after.exclusiveHolds key = some present) : state.exclusiveHolds key = some present :=
  (congrFun wakes.exclusiveHolds key).symm.trans found

/-- A step that only wakes calls. -/
theorem Woken.keeps (wakes : Woken state after) (lock : LockInvariant state) (id : Nat) :
    Keeps permitted state after id where
  lock := wakes.lock lock
  own := .passive (wakes.passive id)
  others other _ := wakes.passive other
  named key _ found := wakes.named key found

section

variable (lock : LockInvariant state)
include lock

/-- A step that wakes some calls and moves one that does not wait for earlier calls. -/
theorem Keeps.of_woken {woken : State} (wakes : Woken state woken)
    (elsewhere : ∀ index, (state.calls id).phase ≠ .emissionWait index)
    (same : SameForLock state.holders (state.calls id) call)
    (moved : Move permitted id (state.calls id) call) :
    Keeps permitted state (woken.setCall id call) id where
  lock := by
    refine (wakes.lock lock).setCall ?_
    rw [wakes.holders, wakes.eq elsewhere]
    exact same
  own := by
    rw [setCall_self]
    exact moved
  others other away := by
    rw [setCall_of_ne _ _ away]
    exact wakes.passive other
  named key _ found := wakes.named key found

theorem Keeps.of_setCall (same : SameForLock state.holders (state.calls id) call)
    (moved : Move permitted id (state.calls id) call) :
    Keeps permitted state (state.setCall id call) id where
  lock := lock.setCall same
  own := by
    rw [setCall_self]
    exact moved
  others other away := by
    rw [setCall_of_ne _ _ away]
    exact .same _
  named _ _ found := found

theorem enterMutation_keeps (admitted : (state.calls id).phase = .admitted)
    (mutation : (state.calls id).group = .mutation) (right : permitted (.enter id)) :
    Keeps permitted state (state.enterMutation id) id := by
  have wakes := markAnnouncementJoined_woken state (state.calls id).callId
    (state.calls id).announcer
  have elsewhere : ∀ index, (state.calls id).phase ≠ .emissionWait index := by simp [admitted]
  unfold State.enterMutation
  dsimp only
  unfold State.setPhase
  rw [wakes.eq elsewhere]
  split
  next aborted =>
    refine .of_woken lock wakes elsewhere ⟨rfl, fun _ => rfl, by simp [admitted], by simp⟩ ?_
    exact .fail (Or.inr ⟨aborted, Or.inr (Or.inr (Or.inr ⟨admitted, mutation⟩))⟩)
  next running =>
    rw [Bool.not_eq_true] at running
    refine .of_woken lock wakes elsewhere ⟨rfl, fun _ => rfl, by simp [admitted], by simp⟩ ?_
    exact .enter right admitted mutation running

theorem releaseLock_calls (holds : (state.calls id).holdsLock = true)
    (elsewhere : ∀ index, (state.calls id).phase ≠ .emissionWait index)
    (unqueued : (state.calls id).phase ≠ .lockQueue) (stays : (state.calls id).phase ≠ .drainWait) :
    (state.releaseLock id).calls id = { state.calls id with holdsLock := false } ∧
      ∀ other, other ≠ id →
        Passive (state.calls other) ((state.releaseLock id).calls other) := by
  have moved := (releaseLock_spec lock holds stays).2
  constructor
  · have own := moved id
    rw [setCall_self] at own
    exact own.eq elsewhere unqueued stays
  · intro other away
    have others := moved other
    rwa [setCall_of_ne _ _ away] at others

theorem enterCommand_keeps (admitted : (state.calls id).phase = .admitted)
    (command : (state.calls id).group ≠ .mutation) (fits : (state.calls id).Fits) :
    Keeps permitted state (state.enterCommand id) id := by
  have holds : (state.calls id).holdsLock = true := by
    simp only [Call.Fits, admitted] at fits
    exact fits.1
  have entered : LockInvariant (state.setCall id { state.calls id with queued := false }) :=
    lock.setCall ⟨rfl, fun _ => rfl, by simp [admitted], by simp [admitted]⟩
  have here : (state.setCall id { state.calls id with queued := false }).calls id =
      { state.calls id with queued := false } := setCall_self _ _ _
  unfold State.enterCommand
  dsimp only
  rw [here]
  split
  next lockless =>
    have released := releaseLock_spec entered (by rw [here]; exact holds)
      (by rw [here]; simp [admitted])
    obtain ⟨own, others⟩ := releaseLock_calls entered (by rw [here]; exact holds)
      (by rw [here]; simp [admitted]) (by rw [here]; simp [admitted])
      (by rw [here]; simp [admitted])
    rw [here] at own
    obtain ⟨drained, phase, goes, after⟩ := waitForMutationsToDrain_spec released.1
      (by rw [own]; simp [admitted])
    rw [own] at goes
    refine ⟨drained, ?_, fun other away => ?_, fun key present found => ?_⟩
    · rw [after, setPhase_calls, own, if_pos rfl]
      exact .drop false phase command lockless (Or.inr admitted) goes
    · rw [after, setPhase_calls, if_neg away]
      have moved := others other away
      rwa [setCall_of_ne _ _ away] at moved
    · rw [(waitForMutationsToDrain_lockOnly _ _).exclusiveHolds,
        (releaseLock_lockOnly _ _).exclusiveHolds] at found
      exact found
  next holding =>
    rw [Bool.not_eq_true] at holding
    have wakes := markAnnouncementJoined_woken
      (state.setCall id { state.calls id with queued := false })
      (state.calls id).callId (state.calls id).announcer
    have elsewhere : ∀ index,
        ((state.setCall id { state.calls id with queued := false }).calls id).phase ≠
          .emissionWait index := by
      simp [admitted]
    unfold State.setPhase
    rw [wakes.eq elsewhere, here]
    refine ⟨(wakes.lock entered).setCall ?_, ?_, fun other away => ?_,
      fun key present found => ?_⟩
    · rw [wakes.eq elsewhere, here]
      exact ⟨rfl, fun _ => rfl, by simp [admitted], by simp⟩
    · rw [setCall_self]
      exact .run admitted command holding
    · have moved := wakes.passive other
      rwa [setCall_of_ne _ _ away] at moved ⊢
    · exact (congrFun wakes.exclusiveHolds key).symm.trans found

section

variable (leaves : (state.calls id).phase = .body ∨ (state.calls id).phase = .failing)
include leaves

/-- The lock after a call that ends gave back its place, if it had one. -/
theorem given_keeps :
    ∃ given, (if (state.calls id).holdsLock = true then state.releaseLock id else state) = given ∧
      LockInvariant given ∧ LockOnly state given ∧
      given.calls id = { state.calls id with holdsLock := false } ∧
      ∀ other, other ≠ id → Passive (state.calls other) (given.calls other) := by
  have elsewhere : (∀ index, (state.calls id).phase ≠ .emissionWait index) ∧
      (state.calls id).phase ≠ .lockQueue ∧ (state.calls id).phase ≠ .drainWait := by
    rcases leaves with phase | phase <;> simp [phase]
  refine ⟨_, rfl, ?_⟩
  split
  next holds =>
    obtain ⟨own, others⟩ := releaseLock_calls lock holds elsewhere.1 elsewhere.2.1 elsewhere.2.2
    exact ⟨(releaseLock_spec lock holds elsewhere.2.2).1, releaseLock_lockOnly state id, own,
      others⟩
  next outside =>
    rw [Bool.not_eq_true] at outside
    refine ⟨lock, .refl _, ?_, fun _ _ => .same _⟩
    rw [← outside]

theorem leaveMutation_keeps : Keeps permitted state (state.leaveMutation id) id := by
  obtain ⟨given, same, givenLock, only, own, others⟩ := given_keeps lock leaves
  have keeps : Keeps permitted state (given.setPhase id .ended) id := by
    refine ⟨givenLock.setCall ⟨rfl, fun _ => rfl, ?_, by simp⟩, ?_, fun other away => ?_,
      fun key present found => ?_⟩
    · rw [own]
      rcases leaves with phase | phase <;> simp [phase]
    · rw [setPhase_calls, own, if_pos rfl]
      exact .finish _ leaves
    · rw [setPhase_calls, if_neg away]
      exact others other away
    · exact (congrFun only.exclusiveHolds key).symm.trans found
  unfold State.leaveMutation
  rw [same]
  dsimp only
  split
  · exact keeps
  · split
    · exact ⟨keeps.lock.recast rfl rfl fun _ => .refl _ _, keeps.own, keeps.others, keeps.named⟩
    · exact keeps

theorem unregister_spec (outside : (state.calls id).holdsLock = false) :
    Keeps permitted state ((state.unregister id).setPhase id .ended) id ∧
      ((state.unregister id).setPhase id .ended).calls id =
        { state.calls id with done := true, phase := .ended } := by
  have elsewhere : ∀ index, (state.calls id).phase ≠ .emissionWait index := by
    rcases leaves with phase | phase <;> simp [phase]
  have here : (state.setCall id { state.calls id with done := true }).calls id =
      { state.calls id with done := true } := setCall_self _ _ _
  have flagged : LockInvariant (state.setCall id { state.calls id with done := true }) :=
    lock.setCall ⟨rfl, fun _ => rfl, Iff.rfl, Or.inl⟩
  have wakes := markAnnouncementJoined_woken
    (state.setCall id { state.calls id with done := true })
    (state.calls id).callId (state.calls id).announcer
  obtain ⟨after, unregistered, calls, holders, waiters, named⟩ : ∃ after,
      state.unregister id = after ∧
      after.calls = ((state.setCall id { state.calls id with done := true }).markAnnouncementJoined
        (state.calls id).callId (state.calls id).announcer).calls ∧
      after.holders = state.holders ∧ after.waiters = state.waiters ∧
      ∀ key present, after.exclusiveHolds key = some present →
        state.exclusiveHolds key = some present := by
    refine ⟨_, rfl, ?_⟩
    unfold State.unregister
    dsimp only
    split
    · exact ⟨rfl, wakes.holders, wakes.waiters, fun key present found =>
        (congrFun wakes.exclusiveHolds key).symm.trans found⟩
    · split
      · refine ⟨rfl, wakes.holders, wakes.waiters, fun key present found => ?_⟩
        dsimp only at found
        rw [Function.update_apply] at found
        split at found
        · cases found
        · exact (congrFun wakes.exclusiveHolds key).symm.trans found
      · exact ⟨rfl, wakes.holders, wakes.waiters, fun key present found =>
          (congrFun wakes.exclusiveHolds key).symm.trans found⟩
  rw [unregistered]
  have own : after.calls id = { state.calls id with done := true } := by
    rw [calls, wakes.eq (by rw [here]; exact elsewhere), here]
  have other_calls : ∀ other, other ≠ id → Passive (state.calls other) (after.calls other) := by
    intro other away
    have moved := wakes.passive other
    rwa [setCall_of_ne _ _ away, ← calls] at moved
  have afterLock : LockInvariant after := by
    refine (wakes.lock flagged).recast ?_ ?_ fun other => ?_
    · rw [holders, wakes.holders]
      rfl
    · rw [waiters, wakes.waiters]
      rfl
    · rw [calls]
      exact .refl _ _
  refine ⟨⟨afterLock.setCall ⟨rfl, fun _ => rfl, ?_, by simp⟩, ?_, fun other away => ?_, named⟩,
    by rw [setPhase_calls, own, if_pos rfl]⟩
  · rw [own]
    rcases leaves with phase | phase <;> simp [phase]
  · rw [setPhase_calls, own, if_pos rfl]
    have moved : Move permitted id (state.calls id) _ := .finish true leaves
    rw [← outside] at moved
    exact moved
  · rw [setPhase_calls, if_neg away]
    exact other_calls other away

theorem finish_keeps : Keeps permitted state (state.finish id) id := by
  unfold State.finish
  split
  next mutation => exact leaveMutation_keeps lock leaves
  next command =>
    obtain ⟨given, same, givenLock, only, own, others⟩ := given_keeps lock leaves
    rw [same]
    have spec : Keeps permitted given _ id ∧ _ :=
      unregister_spec givenLock (by rw [own]; exact leaves) (by rw [own])
    obtain ⟨keeps, ended⟩ := spec
    refine ⟨keeps.lock, ?_, fun other away => (others other away).trans (keeps.others other away),
      fun key present found => ?_⟩
    · rw [ended, own]
      exact .finish true leaves
    · exact (congrFun only.exclusiveHolds key).symm.trans (keeps.named key present found)

end

/-- A command run is handed off. -/
theorem releaseHold_keeps (fits : ∀ id, (state.calls id).Fits)
    (named : ∀ key id, state.exclusiveHolds key = some id → (state.calls id).group ≠ .mutation)
    (callId : String) (announcer : Option String)
    (rights : ∀ id, state.exclusiveHolds (callId, announcer) = some id → permitted (.handOff id)) :
    ∃ id, Keeps permitted state (state.releaseHold callId announcer) id := by
  unfold State.releaseHold
  split
  next => exact ⟨0, (Woken.refl state).keeps lock 0⟩
  next id present =>
    refine ⟨id, ?_⟩
    have command := named _ _ present
    split
    next => exact (Woken.refl state).keeps lock id
    next =>
      have wakes := markAnnouncementJoined_woken state (some callId) announcer
      have still : ((state.markAnnouncementJoined (some callId) announcer).calls id).holdsLock =
            (state.calls id).holdsLock ∧
          ((state.markAnnouncementJoined (some callId) announcer).calls id).queued =
            (state.calls id).queued := by
        rcases wakes.calls id with same | ⟨_, -, cleared⟩
        · rw [same]
          exact ⟨rfl, rfl⟩
        · rw [cleared]
          exact ⟨rfl, rfl⟩
      dsimp only
      split
      next queued =>
        rw [still.2] at queued
        refine ⟨(wakes.lock lock).setCall ⟨rfl, fun _ => rfl, Iff.rfl, Or.inl⟩, ?_,
          fun other away => ?_, fun key _ found => wakes.named key found⟩
        · rw [setCall_self]
          exact .handOff (rights id present) (wakes.passive id) still.1 command queued
        · rw [setCall_of_ne _ _ away]
          exact wakes.passive other
      next joined =>
        rw [still.2, Bool.not_eq_true] at joined
        have elsewhere : ∀ index, (state.calls id).phase ≠ .emissionWait index := by
          intro index waiting
          have fit := fits id
          simp only [Call.Fits, waiting] at fit
          rw [fit.2 command] at joined
          cases joined
        have body : (state.calls id).holdsLock = true → (state.calls id).phase = .body := by
          intro holds
          have fit := fits id
          unfold Call.Fits at fit
          split at fit <;> simp_all
        have flagged : LockInvariant ((state.markAnnouncementJoined (some callId)
            announcer).setCall id { state.calls id with done := true }) := by
          refine (wakes.lock lock).setCall ?_
          rw [wakes.eq elsewhere]
          exact ⟨rfl, fun _ => rfl, Iff.rfl, Or.inl⟩
        rw [wakes.eq elsewhere, setCall_self]
        split
        next holds =>
          have own := setCall_self (state.markAnnouncementJoined (some callId) announcer) id
            { state.calls id with done := true }
          have released := releaseLock_spec flagged (by rw [own]; exact holds)
            (by rw [own]; simp [body holds])
          obtain ⟨here, others⟩ := releaseLock_calls flagged (by rw [own]; exact holds)
            (by rw [own]; simp [body holds]) (by rw [own]; simp [body holds])
            (by rw [own]; simp [body holds])
          refine ⟨released.1, ?_, fun other away => ?_, fun key present found => ?_⟩
          · rw [here, own]
            exact .release command joined body
          · have moved := others other away
            rw [setCall_of_ne _ _ away] at moved
            exact (wakes.passive other).trans moved
          · rw [(releaseLock_lockOnly _ _).exclusiveHolds] at found
            exact wakes.named key found
        next outside =>
          rw [Bool.not_eq_true] at outside
          refine ⟨flagged, ?_, fun other away => ?_, fun key _ found => wakes.named key found⟩
          · rw [setCall_self]
            have moved : Move permitted id (state.calls id) _ := .release command joined body
            rw [← outside] at moved
            exact moved
          · rw [setCall_of_ne _ _ away]
            exact wakes.passive other

/-- The signal of a call aborts. -/
theorem abort_keeps (id : Nat) (right : permitted (.abort id)) :
    Keeps permitted state (state.abort id) id := by
  have twice : ∀ phase, (state.setCall id { state.calls id with aborted := true }).setPhase id
      phase = state.setCall id { state.calls id with aborted := true, phase } := by
    intro phase
    unfold State.setPhase
    simp [State.setCall]
  unfold State.abort
  dsimp only
  split
  next phase =>
    rw [twice]
    exact .of_setCall lock ⟨rfl, fun _ => rfl, by simp [phase], by simp⟩ (.abandon right (by simp [phase]))
  next phase =>
    rw [twice]
    exact .of_setCall lock ⟨rfl, fun _ => rfl, by simp [phase], by simp⟩ (.abandon right (by simp [phase]))
  next phase =>
    rw [twice]
    exact .of_setCall lock ⟨rfl, fun _ => rfl, by simp [phase], by simp⟩ (.abandon right (by simp [phase]))
  next phase =>
    rw [twice]
    exact .of_setCall lock ⟨rfl, fun _ => rfl, by simp [phase], by simp⟩ (.abandon right (by simp [phase]))
  next phase =>
    rw [twice]
    have outside := lock.outside id ((lock.queued id).mpr phase)
    have books : LockBooks { state.setCall id
          { state.calls id with aborted := true, phase := .failing } with
        waiters := state.waiters.erase id } (state.waiters.erase id) :=
      lock.toLockBooks.abandon phase rfl rfl outside rfl
    have passive := pumpFrom_passive books
    refine ⟨books.pumpFrom, ?_, fun other away => ?_, fun key present found => ?_⟩
    · have own := passive id
      rw [show State.calls { state.setCall id
          { state.calls id with aborted := true, phase := .failing } with
        waiters := state.waiters.erase id } id =
          { state.calls id with aborted := true, phase := .failing } from setCall_self _ _ _] at own
      unfold State.pumpLock
      rw [own.eq (by simp) (by simp) (by simp)]
      exact .abandon right (by simp [phase])
    · have moved := passive other
      rwa [show State.calls { state.setCall id
          { state.calls id with aborted := true, phase := .failing } with
        waiters := state.waiters.erase id } other = state.calls other from
          setCall_of_ne _ _ away] at moved
    · unfold State.pumpLock at found
      rw [(pumpFrom_lockOnly _ _).exclusiveHolds] at found
      exact found
  next =>
    refine .of_setCall lock ⟨rfl, fun _ => rfl, Iff.rfl, Or.inl⟩ (.abort right ?_)
    simp_all

/-- A call goes on after a wait. -/
theorem resume_keeps (fits : ∀ id, (state.calls id).Fits) (right : permitted .check)
    (enters : permitted (.enter id)) (taken : state.resume id = some after) :
    Keeps permitted state after id := by
  unfold State.resume at taken
  dsimp only at taken
  split at taken
  next registered =>
    cases taken
    obtain ⟨phase, goes, same⟩ := waitForEarlierAnnouncedCalls_spec state id
    rw [same]
    refine .of_setCall lock ⟨rfl, fun _ => rfl, ?_, ?_⟩ ?_
    · rcases goes with rfl | ⟨_, rfl, -⟩ | ⟨rfl, -⟩ <;> simp [registered]
    · rcases goes with rfl | ⟨_, rfl, -⟩ | ⟨rfl, -⟩ <;> simp
    · rcases goes with rfl | ⟨index, rfl, running⟩ | ⟨rfl, aborted⟩
      · exact .check _ right registered (Or.inl rfl)
      · exact .check _ right registered (Or.inr ⟨index, rfl, running⟩)
      · exact .fail (Or.inr ⟨aborted, Or.inl registered⟩)
  next cleared =>
    have fit := fits id
    simp only [Call.Fits, cleared] at fit
    split at taken
    next lockless =>
      cases taken
      obtain ⟨drained, phase, goes, same⟩ := waitForMutationsToDrain_spec lock
        (show (state.calls id).phase ≠ .lockQueue by simp [cleared])
      refine ⟨drained, ?_, fun other away => ?_, fun key present found => ?_⟩
      · rw [same, setPhase_calls, if_pos rfl]
        have moved : Move permitted id (state.calls id) _ :=
          .drop (state.calls id).queued phase lockless.1 lockless.2 (Or.inl cleared) goes
        rw [← fit.1] at moved
        exact moved
      · rw [same, setPhase_calls, if_neg away]
        exact .same _
      · rw [same] at found
        exact found
    next =>
      cases taken
      obtain ⟨kept, moves⟩ := acquireLock_spec lock cleared (fits id)
      refine ⟨kept, moves id, fun other away => ?_, fun key present found => ?_⟩
      · rw [acquireLock_of_ne state away]
        exact .same _
      · exact (congrFun (acquireLock_lockOnly state id).exclusiveHolds key).symm.trans found
  next admitted =>
    split at taken
    next mutation =>
      cases taken
      exact enterMutation_keeps lock admitted mutation enters
    next command =>
      cases taken
      exact enterCommand_keeps lock admitted command (fits id)
  next ready =>
    split at taken
    next aborted =>
      cases taken
      exact .of_setCall lock ⟨rfl, fun _ => rfl, by simp [ready], by simp⟩
        (.fail (Or.inr ⟨aborted, Or.inr (Or.inr (Or.inl ready))⟩))
    next running =>
      cases taken
      rw [Bool.not_eq_true] at running
      exact .of_setCall lock ⟨rfl, fun _ => rfl, by simp [ready], by simp⟩ (.turn ready running)
  next drained =>
    cases taken
    exact .of_setCall lock ⟨rfl, fun _ => rfl, by simp [drained], by simp⟩ (.runLockless drained)
  next => cases taken

end

end Lock

/-- What holds of the lock and of every call in every reachable state. -/
structure Core (state : State) : Prop where
  lock : LockInvariant state
  fits : ∀ id, (state.calls id).Fits
  named : ∀ key id, state.exclusiveHolds key = some id →
    (state.calls id).group ≠ .mutation ∧ (state.calls id).callId = some key.1 ∧
      (state.calls id).announcer = key.2 ∧ (state.calls id).phase ≠ .idle

theorem core_initialState : Core initialState where
  lock := {
    counted := ⟨∅, by simp [initialState, idleCall], rfl⟩
    shared := fun _ holds => nomatch holds
    positive := fun _ _ held => nomatch held
    alone := fun _ held => nomatch held
    queued := by simp [initialState, idleCall]
    distinct := List.nodup_nil
    outside := fun _ member => nomatch member
    draining := fun _ waits => nomatch waits
    blocked := fun _ _ first => nomatch first }
  fits _ := rfl
  named _ _ present := nomatch present

/-- A move keeps who a call is once it was made. -/
theorem Move.same {before after : Call} (moved : Move permitted id before after)
    (made : before.phase ≠ .idle) :
    after.group = before.group ∧ after.callId = before.callId ∧
      after.announcer = before.announcer ∧ after.phase ≠ .idle := by
  cases moved with
  | passive moved => cases moved <;> exact ⟨rfl, rfl, rfl, by simp_all⟩
  | startMutation _ _ _ idle => exact absurd idle made
  | startCommand _ _ _ _ _ idle => exact absurd idle made
  | check phase _ registered waits =>
      rcases waits with rfl | ⟨_, rfl, -⟩ <;> exact ⟨rfl, rfl, rfl, by simp⟩
  | drop queued phase _ _ _ goes =>
      rcases goes with rfl | ⟨rfl, -⟩ | ⟨rfl, -⟩ <;> exact ⟨rfl, rfl, rfl, by simp⟩
  | handOff _ moved => cases moved <;> exact ⟨rfl, rfl, rfl, by simp_all⟩
  | _ => exact ⟨rfl, rfl, rfl, by simp_all⟩

def Event.permits (state : State) : Event → Right → Prop
  | .register _ _, .place => True
  | .settlePath _, .turn => True
  | .resume _, .check => True
  | .resume id, .enter entering => id = entering
  | .startMutation id _ _, .callMutation called => id = called
  | .startCommand id _ _, .callCommand called => id = called
  | .handOff callId announcer, .handOff id => state.exclusiveHolds (callId, announcer) = some id
  | .abort id, .abort aborted => id = aborted
  | _, _ => False

/-- Every step keeps what holds of the lock and of every call, and moves calls as listed. -/
theorem core_step {before after : State} {event : Event} (core : Core before)
    (taken : Step before event after) :
    Core after ∧ ∀ id, Move (event.permits before) id (before.calls id) (after.calls id) := by
  have named : ∀ key id, before.exclusiveHolds key = some id →
      (before.calls id).group ≠ .mutation := fun key id present => (core.named key id present).1
  have finished : ∀ id, Keeps (event.permits before) before after id →
      Core after ∧ ∀ id, Move (event.permits before) id (before.calls id) (after.calls id) := by
    intro id keeps
    refine ⟨⟨keeps.lock, fun other => (keeps.moves other).fits (core.fits other), ?_⟩, keeps.moves⟩
    intro key present found
    obtain ⟨command, callId, announcer, made⟩ :=
      core.named key present (keeps.named key present found)
    obtain ⟨group, callId', announcer', made'⟩ := (keeps.moves present).same made
    exact ⟨group ▸ command, callId'.trans callId, announcer'.trans announcer, made'⟩
  cases event with
  | announce callId index kind batchId announcer =>
      cases taken
      exact finished _ ((announce_woken before callId index kind batchId announcer).keeps core.lock 0)
  | retire callId announcer =>
      cases taken
      exact finished _ ((retire_woken before callId announcer).keeps core.lock 0)
  | startMutation id callId announcer =>
      simp only [Step, next, Option.ite_none_right_eq_some, Option.some.injEq] at taken
      obtain ⟨idle, rfl⟩ := taken
      have fit := core.fits id
      simp only [Call.Fits, idle] at fit
      have keeps : Keeps (Event.permits before (.startMutation id callId announcer)) before
          (before.setCall id { idleCall with callId, announcer, phase := .registering }) id :=
        .of_setCall core.lock ⟨fit.symm, by simp [fit, idle], by simp [idle], by simp⟩
          (.startMutation callId announcer rfl idle)
      exact finished id ⟨keeps.lock.recast rfl rfl fun _ => .refl _ _, keeps.own,
        keeps.others, keeps.named⟩
  | startCommand id callId announcer =>
      simp only [Step, next, Option.ite_none_right_eq_some, Option.some.injEq] at taken
      obtain ⟨idle, rfl⟩ := taken
      have fit := core.fits id
      simp only [Call.Fits, idle] at fit
      obtain ⟨group, phase, command, waits, calls, holders, waiters, names⟩ :=
        startCommand_spec before id callId announcer
      have moved : Move (Event.permits before (.startCommand id callId announcer)) id
          (before.calls id) _ :=
        .startCommand callId announcer group phase rfl idle command waits
      have moves := update_moves calls moved
      refine ⟨⟨?_, fun other => (moves other).fits (core.fits other), ?_⟩, moves⟩
      · refine core.lock.update calls holders waiters ⟨fit.symm, by simp [fit, idle], ?_, ?_⟩
        · rcases waits with rfl | ⟨_, rfl⟩ <;> simp [idle]
        · rcases waits with rfl | ⟨_, rfl⟩ <;> simp
      · intro key present found
        rcases names key present found with ⟨rfl, callId', announcer'⟩ | earlier
        · rw [calls, Function.update_self]
          refine ⟨command, callId', announcer', ?_⟩
          rcases waits with rfl | ⟨_, rfl⟩ <;> simp
        · obtain ⟨still, callId', announcer', made⟩ := core.named key present earlier
          obtain ⟨group, callId'', announcer'', made'⟩ := (moves present).same made
          exact ⟨group ▸ still, callId''.trans callId', announcer''.trans announcer', made'⟩
  | register id key =>
      simp only [Step, next, Option.ite_none_right_eq_some, Option.some.injEq] at taken
      obtain ⟨⟨-, registering⟩, rfl⟩ := taken
      have keeps : Keeps (Event.permits before (.register id key)) before (before.setCall id {
          before.calls id with
          phase := .registered
          key := some key
          currentQueue := (before.queues key).getD [] }) id :=
        .of_setCall core.lock ⟨rfl, fun _ => rfl, by simp [registering], by simp⟩
          (.register key _ trivial registering)
      exact finished id ⟨keeps.lock.recast rfl rfl fun _ => .refl _ _, keeps.own,
        keeps.others, keeps.named⟩
  | skipRegistration id =>
      simp only [Step, next, Option.ite_none_right_eq_some] at taken
      obtain ⟨-, taken⟩ := taken
      split at taken
      next registering =>
        cases taken
        have keeps : Keeps (Event.permits before (.skipRegistration id)) before
            (before.setPhase id .failing) id :=
          .of_setCall core.lock ⟨rfl, fun _ => rfl, by simp [registering], by simp⟩
            (.fail (Or.inl registering))
        exact finished id ⟨keeps.lock.recast rfl rfl fun _ => .refl _ _, keeps.own,
          keeps.others, keeps.named⟩
      next =>
        cases taken
        exact finished id ⟨core.lock.recast rfl rfl fun _ => .refl _ _, .passive (.same _),
          fun _ _ => .same _, fun _ _ found => found⟩
  | loseRegistration id =>
      simp only [Step, next, Option.ite_none_right_eq_some, Option.some.injEq] at taken
      obtain ⟨⟨registered, aborted⟩, rfl⟩ := taken
      exact finished _ (Keeps.of_setCall core.lock
        ⟨rfl, fun _ => rfl, by simp [registered], by simp⟩
        (.fail (Or.inr ⟨aborted, Or.inl registered⟩)))
  | resume id => exact finished _ (resume_keeps core.lock core.fits trivial rfl taken)
  | settlePath id =>
      simp only [Step, next, Option.ite_none_right_eq_some, Option.some.injEq] at taken
      obtain ⟨⟨waiting, -⟩, rfl⟩ := taken
      exact finished _ (Keeps.of_setCall core.lock ⟨rfl, fun _ => rfl, by simp [waiting], by simp⟩
        (.settle trivial waiting))
  | finish id =>
      simp only [Step, next, Option.ite_none_right_eq_some, Option.some.injEq] at taken
      obtain ⟨leaves, rfl⟩ := taken
      exact finished _ (finish_keeps core.lock leaves)
  | handOff callId announcer =>
      cases taken
      obtain ⟨id, keeps⟩ : ∃ id, Keeps (Event.permits before (.handOff callId announcer)) before
          (before.releaseHold callId announcer) id :=
        releaseHold_keeps core.lock core.fits named callId announcer fun _ present => present
      exact finished id keeps
  | abort id =>
      simp only [Step, next, Option.ite_none_right_eq_some, Option.some.injEq] at taken
      obtain ⟨-, rfl⟩ := taken
      exact finished _ (abort_keeps core.lock id rfl)

end PiAdaptative.MutationLock
