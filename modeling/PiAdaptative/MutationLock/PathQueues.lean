import PiAdaptative.MutationLock.Moves

/-!
# The queues of the files

A registered mutation waits for the queue it found at its file.  While no mutation registers beside
one that an abandoned queue has lost, the mutations of one file run one after the other in the
order of their registration.
-/

namespace PiAdaptative.MutationLock

/-- A step that registers nothing: queues at most disappear. -/
structure QueuesKept (before after : State) : Prop where
  registrations : after.registrations = before.registrations
  registered : after.registered = before.registered
  queues : ∀ key, after.queues key = before.queues key ∨ after.queues key = none

namespace QueuesKept

theorem refl (state : State) : QueuesKept state state := ⟨rfl, rfl, fun _ => Or.inl rfl⟩

theorem trans {first second third : State} (earlier : QueuesKept first second)
    (later : QueuesKept second third) : QueuesKept first third where
  registrations := later.registrations.trans earlier.registrations
  registered := later.registered.trans earlier.registered
  queues key := by
    rcases later.queues key with same | gone
    · rw [same]
      exact earlier.queues key
    · exact Or.inr gone

end QueuesKept

variable {before after : State}

theorem LockOnly.queuesKept (only : LockOnly before after) : QueuesKept before after :=
  ⟨only.registrations, only.registered, fun key => Or.inl (congrFun only.queues key)⟩

theorem Woken.queuesKept (woken : Woken before after) : QueuesKept before after :=
  ⟨woken.registrations, woken.registered, fun key => Or.inl (congrFun woken.queues key)⟩

theorem setCall_queuesKept (state : State) (id : Nat) (call : Call) :
    QueuesKept state (state.setCall id call) := (setCall_lockOnly state id call).queuesKept

theorem waitForEarlierAnnouncedCalls_queuesKept (state : State) (id : Nat) :
    QueuesKept state (state.waitForEarlierAnnouncedCalls id) := by
  obtain ⟨phase, -, same⟩ := waitForEarlierAnnouncedCalls_spec state id
  rw [same]
  exact setCall_queuesKept _ _ _

theorem startCommand_queuesKept (state : State) (id : Nat) (callId announcer : Option String) :
    QueuesKept state (state.startCommand id callId announcer) := by
  have declared : QueuesKept state (state.declareAnnouncedShellRun callId announcer).1 := by
    unfold State.declareAnnouncedShellRun
    split
    · exact .refl _
    · split
      · exact .refl _
      · exact (setAnnouncement_woken _ _ _ _).queuesKept
  refine (declared.trans ?_).trans (waitForEarlierAnnouncedCalls_queuesKept _ _)
  cases callId <;> exact ⟨rfl, rfl, fun _ => Or.inl rfl⟩

theorem enterMutation_queuesKept (state : State) (id : Nat) :
    QueuesKept state (state.enterMutation id) := by
  unfold State.enterMutation
  dsimp only
  split <;> exact (markAnnouncementJoined_woken _ _ _).queuesKept.trans (setCall_queuesKept _ _ _)

theorem enterCommand_queuesKept (state : State) (id : Nat) :
    QueuesKept state (state.enterCommand id) := by
  unfold State.enterCommand
  dsimp only
  split
  · exact ((setCall_queuesKept _ _ _).trans (releaseLock_lockOnly _ _).queuesKept).trans
      (waitForMutationsToDrain_lockOnly _ _).queuesKept
  · exact ((setCall_queuesKept _ _ _).trans
      (markAnnouncementJoined_woken _ _ _).queuesKept).trans (setCall_queuesKept _ _ _)

variable {id : Nat}

theorem resume_queuesKept {state after : State} (taken : state.resume id = some after) :
    QueuesKept state after := by
  unfold State.resume at taken
  dsimp only at taken
  split at taken
  · cases taken
    exact waitForEarlierAnnouncedCalls_queuesKept _ _
  · split at taken
    · cases taken
      exact (waitForMutationsToDrain_lockOnly _ _).queuesKept
    · cases taken
      exact (acquireLock_lockOnly _ _).queuesKept
  · split at taken
    · cases taken
      exact enterMutation_queuesKept _ _
    · cases taken
      exact enterCommand_queuesKept _ _
  · split at taken <;> cases taken <;> exact setCall_queuesKept _ _ _
  · cases taken
    exact setCall_queuesKept _ _ _
  · cases taken

theorem given_queuesKept (state : State) (id : Nat) :
    QueuesKept state (if (state.calls id).holdsLock = true then state.releaseLock id else state) := by
  split
  · exact (releaseLock_lockOnly _ _).queuesKept
  · exact .refl _

theorem leaveMutation_queuesKept (state : State) (id : Nat) :
    QueuesKept state (state.leaveMutation id) := by
  have kept := given_queuesKept state id
  unfold State.leaveMutation
  generalize (if (state.calls id).holdsLock = true then state.releaseLock id else state) = given
    at kept ⊢
  have left := kept.trans (setCall_queuesKept given id { given.calls id with phase := .ended })
  dsimp only
  split
  · exact left
  · split
    · refine left.trans ⟨rfl, rfl, fun other => ?_⟩
      dsimp only
      rw [Function.update_apply]
      split
      · exact Or.inr rfl
      · exact Or.inl rfl
    · exact left

theorem unregister_queuesKept (state : State) (id : Nat) :
    QueuesKept state (state.unregister id) := by
  have marked := (setCall_queuesKept state id { state.calls id with done := true }).trans
    (markAnnouncementJoined_woken _ (state.calls id).callId (state.calls id).announcer).queuesKept
  unfold State.unregister
  dsimp only
  split
  · exact marked
  · split
    · exact marked.trans ⟨rfl, rfl, fun _ => Or.inl rfl⟩
    · exact marked

theorem finish_queuesKept (state : State) (id : Nat) : QueuesKept state (state.finish id) := by
  unfold State.finish
  split
  · exact leaveMutation_queuesKept _ _
  · exact ((given_queuesKept state id).trans (unregister_queuesKept _ _)).trans
      (setCall_queuesKept _ _ _)

theorem releaseHold_queuesKept (state : State) (callId : String) (announcer : Option String) :
    QueuesKept state (state.releaseHold callId announcer) := by
  unfold State.releaseHold
  split
  · exact .refl _
  · split
    · exact .refl _
    · have marked := (markAnnouncementJoined_woken state (some callId) announcer).queuesKept
      dsimp only
      split
      · exact marked.trans (setCall_queuesKept _ _ _)
      · split
        · exact (marked.trans (setCall_queuesKept _ _ _)).trans
            (releaseLock_lockOnly _ _).queuesKept
        · exact marked.trans (setCall_queuesKept _ _ _)

theorem abort_queuesKept (state : State) (id : Nat) : QueuesKept state (state.abort id) := by
  have flagged := setCall_queuesKept state id { state.calls id with aborted := true }
  have failing := flagged.trans (setCall_queuesKept _ id
    { (state.setCall id { state.calls id with aborted := true }).calls id with phase := .failing })
  unfold State.abort
  split
  · exact failing
  · exact failing
  · exact failing
  · exact failing
  · refine QueuesKept.trans ?_ (pumpFrom_lockOnly _ _).queuesKept
    exact ⟨failing.registrations, failing.registered, failing.queues⟩
  · exact flagged

/-- Whether a step takes the first mutation out of the registration or adds one to it. -/
def Event.registers : Event → Bool
  | .startMutation _ _ _ => true
  | .register _ _ => true
  | .skipRegistration _ => true
  | _ => false

/-- Every other step keeps the queues. -/
theorem queuesKept_step {event : Event} (taken : Step before event after)
    (other : event.registers = false) : QueuesKept before after := by
  unfold Step at taken
  cases event with
  | announce callId index kind batchId announcer =>
      cases taken
      exact (announce_woken _ _ _ _ _ _).queuesKept
  | retire callId announcer =>
      cases taken
      exact (retire_woken _ _ _).queuesKept
  | startMutation id callId announcer => cases other
  | startCommand id callId announcer =>
      simp only [next, Option.ite_none_right_eq_some, Option.some.injEq] at taken
      obtain ⟨-, rfl⟩ := taken
      exact startCommand_queuesKept _ _ _ _
  | register id key => cases other
  | skipRegistration id => cases other
  | loseRegistration id =>
      simp only [next, Option.ite_none_right_eq_some, Option.some.injEq] at taken
      obtain ⟨-, rfl⟩ := taken
      exact setCall_queuesKept _ _ _
  | resume id => exact resume_queuesKept taken
  | settlePath id =>
      simp only [next, Option.ite_none_right_eq_some, Option.some.injEq] at taken
      obtain ⟨-, rfl⟩ := taken
      exact setCall_queuesKept _ _ _
  | finish id =>
      simp only [next, Option.ite_none_right_eq_some, Option.some.injEq] at taken
      obtain ⟨-, rfl⟩ := taken
      exact finish_queuesKept _ _
  | handOff callId announcer =>
      cases taken
      exact releaseHold_queuesKept _ _ _
  | abort id =>
      simp only [next, Option.ite_none_right_eq_some, Option.some.injEq] at taken
      obtain ⟨-, rfl⟩ := taken
      exact abort_queuesKept _ _

/-- Whether a call has ended or will never run its body. -/
def Call.Over (call : Call) : Prop := call.phase = .ended ∨ call.phase = .failing

variable {permitted : Right → Prop}

theorem Move.staysOver {before after : Call} (moved : Move permitted id before after)
    (finished : before.Over) : after.Over := by
  unfold Call.Over at finished ⊢
  cases moved with
  | passive moved => cases moved <;> simp_all
  | handOff _ moved => cases moved <;> simp_all
  | check _ _ registered => simp_all
  | drop _ _ _ _ joined => rcases joined with before | before <;> simp [before] at finished
  | _ => simp_all

/-- Only a registration gives a call a place in a queue. -/
theorem Move.place {before after : Call} (moved : Move permitted id before after)
    (unplaced : before.phase = .idle → before.key = none ∧ before.currentQueue = [])
    (elsewhere : ¬permitted .place) :
    after.key = before.key ∧ after.currentQueue = before.currentQueue := by
  cases moved with
  | passive moved => cases moved <;> exact ⟨rfl, rfl⟩
  | startMutation _ _ _ idle => exact ⟨(unplaced idle).1.symm, (unplaced idle).2.symm⟩
  | startCommand _ _ _ _ _ idle => exact ⟨(unplaced idle).1.symm, (unplaced idle).2.symm⟩
  | register _ _ right => exact absurd right elsewhere
  | handOff _ moved => cases moved <;> exact ⟨rfl, rfl⟩
  | _ => exact ⟨rfl, rfl⟩

/-- A call that is not about to register never returns there. -/
theorem Move.unplaced {before after : Call} (moved : Move permitted id before after)
    (waits : after.phase = .idle ∨ after.phase = .registering) :
    before.phase = .idle ∨ before.phase = .registering := by
  cases moved with
  | passive moved => cases moved <;> simp_all
  | startMutation _ _ _ idle => exact Or.inl idle
  | startCommand _ _ _ _ _ idle => exact Or.inl idle
  | register _ _ _ registering => exact Or.inr registering
  | check phase _ registered waiting => rcases waiting with rfl | ⟨_, rfl, -⟩ <;> simp_all
  | drop queued phase _ _ _ goes => rcases goes with rfl | ⟨rfl, -⟩ | ⟨rfl, -⟩ <;> simp_all
  | handOff _ moved => cases moved <;> simp_all
  | _ => simp_all

/-- A mutation whose turn has come. -/
def Call.HasTurn (call : Call) : Prop :=
  call.phase = .pathReady ∨ call.phase = .body ∧ call.group = .mutation

theorem Move.hasTurn {before after : Call} (moved : Move permitted id before after)
    (fits : before.Fits) (elsewhere : ¬permitted .turn) (turn : after.HasTurn) :
    before.HasTurn := by
  unfold Call.HasTurn at turn ⊢
  cases moved with
  | passive moved => cases moved <;> simp_all
  | startCommand _ _ _ _ _ _ _ waits => rcases waits with rfl | ⟨_, rfl⟩ <;> simp_all
  | check phase _ registered waiting => rcases waiting with rfl | ⟨_, rfl, -⟩ <;> simp_all
  | drop queued phase _ _ _ goes => rcases goes with rfl | ⟨rfl, -⟩ | ⟨rfl, -⟩ <;> simp_all
  | handOff _ moved => cases moved <;> simp_all
  | runLockless drained =>
      simp only [Call.Fits, drained] at fits
      simp_all
  | _ => simp_all

/-- Whether a call is past its registration and has not given up or ended. -/
def Call.Active (call : Call) : Prop :=
  call.phase ≠ .idle ∧ call.phase ≠ .registering ∧ call.phase ≠ .failing ∧ call.phase ≠ .ended

/-- Only a registration makes a mutation active. -/
theorem Move.active {before after : Call} (moved : Move permitted id before after)
    (elsewhere : ¬permitted .place) (mutation : after.group = .mutation) (active : after.Active) :
    before.group = .mutation ∧ before.Active := by
  unfold Call.Active at active ⊢
  cases moved with
  | passive moved => cases moved <;> simp_all
  | startCommand _ _ _ _ _ _ command _ => exact absurd mutation command
  | check phase _ registered waiting => rcases waiting with rfl | ⟨_, rfl, -⟩ <;> simp_all
  | drop queued phase command _ _ _ => exact absurd mutation command
  | handOff _ moved => cases moved <;> simp_all
  | _ => simp_all

structure Registrations (state : State) : Prop where
  listed : ∀ id, id ∈ state.registered ↔ (state.calls id).key ≠ none
  distinct : state.registered.Nodup
  unplaced : ∀ id, (state.calls id).phase = .idle ∨ (state.calls id).phase = .registering →
    (state.calls id).key = none ∧ (state.calls id).currentQueue = []
  placed : ∀ id, (state.calls id).group = .mutation → (state.calls id).Active →
    (state.calls id).key ≠ none
  settled : ∀ id, (state.calls id).HasTurn → ∀ other ∈ (state.calls id).currentQueue,
    (state.calls other).Over

theorem registrations_initialState : Registrations initialState where
  listed id := by simp [initialState, idleCall]
  distinct := List.nodup_nil
  unplaced _ _ := ⟨rfl, rfl⟩
  placed _ _ active := absurd rfl active.1
  settled _ turn := by
    rcases turn with ready | ⟨body, -⟩
    · cases ready
    · cases body

/-- A step that places nothing keeps the registrations. -/
theorem Registrations.keep (registrations : Registrations before)
    (fits : ∀ id, (before.calls id).Fits)
    (moves : ∀ id, Move permitted id (before.calls id) (after.calls id))
    (elsewhere : ¬permitted .place ∧ ¬permitted .turn)
    (registered : after.registered = before.registered) : Registrations after := by
  have place := fun id => (moves id).place
    (fun idle => registrations.unplaced id (Or.inl idle)) elsewhere.1
  refine ⟨?_, ?_, ?_, ?_, ?_⟩
  · intro id
    rw [registered, (place id).1]
    exact registrations.listed id
  · rw [registered]
    exact registrations.distinct
  · intro id waits
    rw [(place id).1, (place id).2]
    exact registrations.unplaced id ((moves id).unplaced waits)
  · intro id mutation active
    obtain ⟨before, was⟩ := (moves id).active elsewhere.1 mutation active
    rw [(place id).1]
    exact registrations.placed id before was
  · intro id turn other member
    rw [(place id).2] at member
    exact (moves other).staysOver
      (registrations.settled id ((moves id).hasTurn (fits id) elsewhere.2 turn) other member)

/-- The queues cover the mutations that are not over, in the order of their registration. -/
structure Turns (state : State) : Prop extends Registrations state where
  covers : ∀ key queue id, state.queues key = some queue → (state.calls id).key = some key →
    id ∈ queue ∨ (state.calls id).Over
  ordered : ∀ earlier id later, state.registered = earlier ++ id :: later →
    ∀ other ∈ earlier, (state.calls other).key = (state.calls id).key →
      other ∈ (state.calls id).currentQueue ∨ (state.calls other).Over

/-- A mutation registers beside one that is not over, because its file has no queue any more. -/
def RegistersBeside (state : State) : Event → Prop
  | .register _ key => state.queues key = none ∧
      ∃ other, (state.calls other).key = some key ∧ ¬(state.calls other).Over
  | _ => False

theorem Turns.keep (turns : Turns before) (fits : ∀ id, (before.calls id).Fits)
    (moves : ∀ id, Move permitted id (before.calls id) (after.calls id))
    (elsewhere : ¬permitted .place ∧ ¬permitted .turn)
    (registered : after.registered = before.registered)
    (queues : ∀ key, after.queues key = before.queues key ∨ after.queues key = none) :
    Turns after := by
  have place := fun id => (moves id).place
    (fun idle => turns.unplaced id (Or.inl idle)) elsewhere.1
  refine ⟨turns.toRegistrations.keep fits moves elsewhere registered, ?_, ?_⟩
  · intro key queue id present own
    rw [(place id).1] at own
    rcases queues key with same | gone
    · rw [same] at present
      exact (turns.covers key queue id present own).imp_right (moves id).staysOver
    · rw [gone] at present
      cases present
  · intro earlier id later split other member same
    rw [registered] at split
    rw [(place other).1, (place id).1] at same
    rw [(place id).2]
    exact (turns.ordered earlier id later split other member same).imp_right (moves other).staysOver

section Places

variable {state : State} {id : Nat}

theorem register_calls (state : State) (id other : Nat) (key : String) :
    (state.register id key).calls other = if other = id then
      { state.calls id with
        phase := .registered
        key := some key
        currentQueue := (state.queues key).getD [] } else state.calls other :=
  setCall_calls _ _ _ _

/-- A registering mutation has no place yet. -/
theorem Registrations.fresh (registrations : Registrations state)
    (registering : (state.calls id).phase = .registering) : id ∉ state.registered := by
  rw [registrations.listed, (registrations.unplaced id (Or.inr registering)).1]
  simp

theorem Registrations.register (registrations : Registrations state) (key : String)
    (registering : (state.calls id).phase = .registering) :
    Registrations (state.register id key) := by
  have fresh := registrations.fresh registering
  refine ⟨?_, ?_, ?_, ?_, ?_⟩
  · intro other
    rw [show (state.register id key).registered = state.registered ++ [id] from rfl,
      List.mem_append, List.mem_singleton, registrations.listed, register_calls]
    by_cases here : other = id <;> simp [here]
  · refine List.nodup_append.mpr ⟨registrations.distinct, List.nodup_singleton _, ?_⟩
    rintro other member _ last rfl
    exact fresh (List.mem_singleton.mp last ▸ member)
  · intro other waits
    rw [register_calls] at waits ⊢
    by_cases here : other = id
    · simp [here] at waits
    · rw [if_neg here] at waits ⊢
      exact registrations.unplaced other waits
  · intro other mutation active
    rw [register_calls] at mutation active ⊢
    by_cases here : other = id
    · simp [here]
    · rw [if_neg here] at mutation active ⊢
      exact registrations.placed other mutation active
  · intro other turn earlier member
    rw [register_calls] at turn member
    by_cases here : other = id
    · simp [here, Call.HasTurn] at turn
    · rw [if_neg here] at turn member
      have finished := registrations.settled other turn earlier member
      rw [register_calls, if_neg]
      · exact finished
      · rintro rfl
        simp [Call.Over, registering] at finished

theorem Turns.register (turns : Turns state) (key : String)
    (registering : (state.calls id).phase = .registering)
    (beside : ¬RegistersBeside state (.register id key)) : Turns (state.register id key) := by
  have fresh := turns.fresh registering
  have finished : ∀ other, (state.calls other).Over →
      ((state.register id key).calls other).Over := by
    intro other finished
    rw [register_calls, if_neg]
    · exact finished
    · rintro rfl
      simp [Call.Over, registering] at finished
  have covered : ∀ other, (state.calls other).key = some key →
      other ∈ (state.queues key).getD [] ∨ (state.calls other).Over := by
    intro other own
    cases present : state.queues key with
    | some queue => exact turns.covers key queue other present own
    | none =>
        right
        by_contra running
        exact beside ⟨present, other, own, running⟩
  refine ⟨turns.toRegistrations.register key registering, ?_, ?_⟩
  · intro name queue other present own
    rw [show (state.register id key).queues = Function.update state.queues key
      (some (id :: (state.queues key).getD [])) from rfl, Function.update_apply] at present
    rw [register_calls] at own
    by_cases here : other = id
    · subst here
      rw [if_pos rfl] at own
      cases own
      rw [if_pos rfl, Option.some.injEq] at present
      exact Or.inl (present ▸ List.mem_cons_self)
    · rw [if_neg here] at own
      by_cases same : name = key
      · subst same
        rw [if_pos rfl, Option.some.injEq] at present
        subst present
        exact (covered other own).imp (List.mem_cons_of_mem id) (finished other)
      · rw [if_neg same] at present
        exact (turns.covers name queue other present own).imp_right (finished other)
  · intro earlier last later split other member same
    have away : other ≠ last := by
      rintro rfl
      have distinct := (turns.toRegistrations.register key registering).distinct
      rw [split] at distinct
      exact (List.nodup_append.mp distinct).2.2 other member other List.mem_cons_self rfl
    rcases List.eq_nil_or_concat later with rfl | ⟨rest, final, rfl⟩
    · obtain ⟨rfl, single⟩ := List.append_inj' split rfl
      obtain rfl := List.singleton_inj.mp single
      rw [register_calls, register_calls, if_pos rfl, if_neg away] at same
      rw [register_calls, if_pos rfl]
      exact (covered other same).imp_right (finished other)
    · rw [List.concat_eq_append, ← List.cons_append, ← List.append_assoc] at split
      obtain ⟨before, single⟩ := List.append_inj' split rfl
      have otherAway : other ≠ id := fun here => fresh (by rw [before, ← here]; simp [member])
      have lastAway : last ≠ id := fun here => fresh (by rw [before, ← here]; simp)
      rw [register_calls, register_calls, if_neg otherAway, if_neg lastAway] at same
      rw [register_calls, if_neg lastAway]
      exact (turns.ordered earlier last rest before other member same).imp_right (finished other)

theorem settle_place (state : State) (id other : Nat) :
    ((state.setPhase id .pathReady).calls other).key = (state.calls other).key ∧
      ((state.setPhase id .pathReady).calls other).currentQueue =
        (state.calls other).currentQueue := by
  rw [setPhase_calls]
  by_cases here : other = id <;> simp [here]

theorem settle_over (waiting : (state.calls id).phase = .pathWait) {other : Nat}
    (finished : (state.calls other).Over) :
    ((state.setPhase id .pathReady).calls other).Over := by
  rw [setPhase_calls, if_neg]
  · exact finished
  · rintro rfl
    simp [Call.Over, waiting] at finished

theorem Registrations.settle (registrations : Registrations state)
    (waiting : (state.calls id).phase = .pathWait)
    (free : ∀ earlier ∈ (state.calls id).currentQueue, (state.calls earlier).phase = .ended) :
    Registrations (state.setPhase id .pathReady) := by
  refine ⟨?_, registrations.distinct, ?_, ?_, ?_⟩
  · intro other
    rw [(settle_place state id other).1]
    exact registrations.listed other
  · intro other waits
    rw [(settle_place state id other).1, (settle_place state id other).2]
    rw [setPhase_calls] at waits
    by_cases here : other = id
    · simp [here] at waits
    · rw [if_neg here] at waits
      exact registrations.unplaced other waits
  · intro other mutation active
    rw [(settle_place state id other).1]
    rw [setPhase_calls] at mutation active
    by_cases here : other = id
    · subst here
      rw [if_pos rfl] at mutation
      refine registrations.placed other mutation ?_
      simp [Call.Active, waiting]
    · rw [if_neg here] at mutation active
      exact registrations.placed other mutation active
  · intro other turn earlier member
    rw [(settle_place state id other).2] at member
    refine settle_over waiting ?_
    by_cases here : other = id
    · subst here
      exact Or.inl (free earlier member)
    · rw [setPhase_calls, if_neg here] at turn
      exact registrations.settled other turn earlier member

theorem Turns.settle (turns : Turns state) (waiting : (state.calls id).phase = .pathWait)
    (free : ∀ earlier ∈ (state.calls id).currentQueue, (state.calls earlier).phase = .ended) :
    Turns (state.setPhase id .pathReady) := by
  refine ⟨turns.toRegistrations.settle waiting free, ?_, ?_⟩
  · intro key queue other present own
    rw [(settle_place state id other).1] at own
    exact (turns.covers key queue other present own).imp_right (settle_over waiting)
  · intro earlier last later split other member same
    rw [(settle_place state id other).1, (settle_place state id last).1] at same
    rw [(settle_place state id last).2]
    exact (turns.ordered earlier last later split other member same).imp_right
      (settle_over waiting)

end Places

variable {state : State}

section Steps

variable {before after : State} {event : Event}

/-- What a step other than a registration or a turn does to the queues. -/
theorem queues_step (taken : Step before event after)
    (elsewhere : ¬event.permits before .place) :
    after.registered = before.registered ∧
      ∀ key, after.queues key = before.queues key ∨ after.queues key = none := by
  cases event with
  | register id key => exact absurd trivial elsewhere
  | startMutation id callId announcer =>
      simp only [Step, next, Option.ite_none_right_eq_some, Option.some.injEq] at taken
      obtain ⟨-, rfl⟩ := taken
      exact ⟨rfl, fun _ => Or.inl rfl⟩
  | skipRegistration id =>
      simp only [Step, next, Option.ite_none_right_eq_some] at taken
      obtain ⟨-, taken⟩ := taken
      split at taken <;> cases taken <;> exact ⟨rfl, fun _ => Or.inl rfl⟩
  | _ =>
      have kept := queuesKept_step taken rfl
      exact ⟨kept.registered, kept.queues⟩

theorem Event.places_or_turns {event : Event}
    (special : ¬(¬event.permits state .place ∧ ¬event.permits state .turn)) :
    (∃ id key, event = .register id key) ∨ ∃ id, event = .settlePath id := by
  cases event with
  | register id key => exact Or.inl ⟨id, key, rfl⟩
  | settlePath id => exact Or.inr ⟨id, rfl⟩
  | _ => exact absurd ⟨id, id⟩ special

theorem registrations_step (core : Core before) (registrations : Registrations before)
    (taken : Step before event after) : Registrations after := by
  by_cases elsewhere : ¬event.permits before .place ∧ ¬event.permits before .turn
  · exact registrations.keep core.fits (core_step core taken).2 elsewhere
      (queues_step taken elsewhere.1).1
  · rcases Event.places_or_turns elsewhere with ⟨id, key, rfl⟩ | ⟨id, rfl⟩
    · simp only [Step, next, Option.ite_none_right_eq_some, Option.some.injEq] at taken
      obtain ⟨⟨-, registering⟩, rfl⟩ := taken
      exact registrations.register key registering
    · simp only [Step, next, Option.ite_none_right_eq_some, Option.some.injEq] at taken
      obtain ⟨⟨waiting, free⟩, rfl⟩ := taken
      exact registrations.settle waiting free

theorem turns_step (core : Core before) (turns : Turns before) (taken : Step before event after)
    (beside : ¬RegistersBeside before event) : Turns after := by
  by_cases elsewhere : ¬event.permits before .place ∧ ¬event.permits before .turn
  · obtain ⟨registered, queues⟩ := queues_step taken elsewhere.1
    exact turns.keep core.fits (core_step core taken).2 elsewhere registered queues
  · rcases Event.places_or_turns elsewhere with ⟨id, key, rfl⟩ | ⟨id, rfl⟩
    · simp only [Step, next, Option.ite_none_right_eq_some, Option.some.injEq] at taken
      obtain ⟨⟨-, registering⟩, rfl⟩ := taken
      exact turns.register key registering beside
    · simp only [Step, next, Option.ite_none_right_eq_some, Option.some.injEq] at taken
      obtain ⟨⟨waiting, free⟩, rfl⟩ := taken
      exact turns.settle waiting free

end Steps

/-- When a mutation body runs, every mutation registered before it on its file is over. -/
def RunsInTurn (state : State) : Prop :=
  ∀ earlier id later, state.registered = earlier ++ id :: later →
    (state.calls id).phase = .body → (state.calls id).group = .mutation →
    ∀ other ∈ earlier, (state.calls other).key = (state.calls id).key →
      (state.calls other).Over

theorem Turns.runsInTurn (turns : Turns state) : RunsInTurn state := by
  intro earlier id later split body mutation other member same
  rcases turns.ordered earlier id later split other member same with waits | finished
  · exact turns.settled id (Or.inr ⟨body, mutation⟩) other waits
  · exact finished

/-- Two mutation bodies of one file never run at the same time. -/
theorem Turns.one_body (turns : Turns state) {first second : Nat}
    (firstBody : (state.calls first).phase = .body)
    (secondBody : (state.calls second).phase = .body)
    (firstMutation : (state.calls first).group = .mutation)
    (secondMutation : (state.calls second).group = .mutation)
    (same : (state.calls first).key = (state.calls second).key) : first = second := by
  have listed := (turns.listed first).mpr
    (turns.placed first firstMutation (by simp [Call.Active, firstBody]))
  have listed' := (turns.listed second).mpr
    (turns.placed second secondMutation (by simp [Call.Active, secondBody]))
  obtain ⟨before, after, split⟩ := List.append_of_mem listed
  rw [split] at listed'
  rcases List.mem_append.mp listed' with earlier | later
  · have finished := turns.runsInTurn before first after split firstBody firstMutation second earlier
      same.symm
    simp [Call.Over, secondBody] at finished
  · rcases List.mem_cons.mp later with here | later
    · exact here.symm
    · obtain ⟨middle, rest, split'⟩ := List.append_of_mem later
      rw [split', ← List.cons_append, ← List.append_assoc] at split
      have finished := turns.runsInTurn (before ++ first :: middle) second rest split secondBody
        secondMutation first (by simp) same
      simp [Call.Over, firstBody] at finished

/-- The steps of an unannounced mutation from its call to the wait for its file. -/
def mutationSteps (id : Nat) (key : String) : List Event :=
  [.startMutation id none none, .register id key, .resume id, .resume id, .resume id]

end PiAdaptative.MutationLock
