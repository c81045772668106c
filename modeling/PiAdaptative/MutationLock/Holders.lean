import PiAdaptative.MutationLock.Scope
import PiAdaptative.Foundations.Execution
import Mathlib.Data.Finset.Card

/-!
# The holders of the lock

The count of the lock is the number of calls that joined and have not released, the holders are all
of one group, and a command run that nobody announced holds the lock alone.
-/

namespace PiAdaptative.MutationLock

/-- What a step of another call can do to a call: its wait ends. -/
inductive Passive : Call → Call → Prop
  | same (call : Call) : Passive call call
  | cleared {call : Call} {index : Nat} (waiting : call.phase = .emissionWait index) :
      Passive call { call with phase := .cleared }
  | admitted {call : Call} (waiting : call.phase = .lockQueue) :
      Passive call { call with phase := .admitted, holdsLock := true }
  | drained {call : Call} (waiting : call.phase = .drainWait) :
      Passive call { call with phase := .drained }

theorem Passive.trans {first second third : Call} (earlier : Passive first second)
    (later : Passive second third) : Passive first third := by
  cases earlier with
  | same => exact later
  | cleared waiting => cases later <;> first | exact .cleared waiting | simp_all
  | admitted waiting => cases later <;> first | exact .admitted waiting | simp_all
  | drained waiting => cases later <;> first | exact .drained waiting | simp_all

/-- A call that does not wait is left alone. -/
theorem Passive.eq {before after : Call} (moved : Passive before after)
    (emission : ∀ index, before.phase ≠ .emissionWait index) (lock : before.phase ≠ .lockQueue)
    (drain : before.phase ≠ .drainWait) : after = before := by
  cases moved with
  | same => rfl
  | cleared waiting => exact absurd waiting (emission _)
  | admitted waiting => exact absurd waiting lock
  | drained waiting => exact absurd waiting drain

/-- What the phase of a call says about the lock and about the kind of the call. -/
def Call.Fits (call : Call) : Prop :=
  match call.phase with
  | .admitted => call.holdsLock = true ∧ (call.group ≠ .mutation → call.queued = true)
  | .pathWait => call.holdsLock = true ∧ call.group = .mutation
  | .pathReady => call.holdsLock = true ∧ call.group = .mutation
  | .body => call.group = .mutation → call.holdsLock = true
  | .failing => call.group ≠ .mutation → call.holdsLock = false
  | .drainWait => call.holdsLock = false ∧ call.group ≠ .mutation
  | .drained => call.holdsLock = false ∧ call.group ≠ .mutation
  | .registering => call.holdsLock = false ∧ call.group = .mutation
  | .registered => call.holdsLock = false ∧ call.group = .mutation
  | .idle => call.holdsLock = false
  | .emissionWait _ =>
      call.holdsLock = false ∧ (call.group ≠ .mutation → call.queued = true)
  | .cleared => call.holdsLock = false ∧ (call.group ≠ .mutation → call.queued = true)
  | .lockQueue => call.holdsLock = false ∧ (call.group ≠ .mutation → call.queued = true)
  | .ended => call.holdsLock = false

theorem Passive.fits {before after : Call} (moved : Passive before after) (fits : before.Fits) :
    after.Fits := by
  cases moved with
  | same => exact fits
  | cleared waiting =>
      simp only [Call.Fits, waiting] at fits ⊢
      exact fits
  | admitted waiting =>
      simp only [Call.Fits, waiting] at fits ⊢
      exact ⟨trivial, fits.2⟩
  | drained waiting =>
      simp only [Call.Fits, waiting] at fits ⊢
      exact fits

/-- The books of the lock while the calls of `waiting` queue for it. -/
structure LockBooks (state : State) (waiting : List Nat) : Prop where
  /-- The count is the number of calls that joined and have not released. -/
  counted : ∃ joined : Finset Nat, (∀ id, id ∈ joined ↔ (state.calls id).holdsLock = true) ∧
    joined.card = state.holderCount
  shared : ∀ id, (state.calls id).holdsLock = true →
    ∃ count, state.holders = some ((state.calls id).group, count)
  positive : ∀ group count, state.holders = some (group, count) → 0 < count
  alone : ∀ count, state.holders = some (.exclusive, count) → count = 1
  queued : ∀ id, id ∈ waiting ↔ (state.calls id).phase = .lockQueue
  distinct : waiting.Nodup
  outside : ∀ id ∈ waiting, (state.calls id).holdsLock = false
  /-- A handed-off command run waits only while mutations hold the lock. -/
  draining : ∀ id, (state.calls id).phase = .drainWait →
    ∃ count, state.holders = some (.mutation, count)

/-- The books of the lock between two steps: the first waiter cannot join the holders. -/
structure LockInvariant (state : State) : Prop extends LockBooks state state.waiters where
  blocked : ∀ head rest, state.waiters = head :: rest →
    State.canJoin (state.calls head).group state.holders = false

/-- What an update of a call may change without touching the books of the lock. -/
structure SameForLock (holders : Option (LockGroup × Nat)) (before after : Call) : Prop where
  holds : after.holdsLock = before.holdsLock
  group : before.holdsLock = true ∨ before.phase = .lockQueue → after.group = before.group
  queue : after.phase = .lockQueue ↔ before.phase = .lockQueue
  drain : after.phase = .drainWait → before.phase = .drainWait ∨
    ∃ count, holders = some (.mutation, count)

theorem SameForLock.refl (holders : Option (LockGroup × Nat)) (call : Call) :
    SameForLock holders call call :=
  ⟨rfl, fun _ => rfl, Iff.rfl, Or.inl⟩

section Books

variable {state : State} {waiting : List Nat}

variable {after : State}

/-- Updates that do not touch the books keep them. -/
theorem LockBooks.recast (books : LockBooks state waiting)
    (holders : after.holders = state.holders)
    (same : ∀ id, SameForLock state.holders (state.calls id) (after.calls id)) :
    LockBooks after waiting where
  counted := by
    obtain ⟨joined, members, card⟩ := books.counted
    refine ⟨joined, fun id => ?_, ?_⟩
    · rw [members, (same id).holds]
    · rw [card, State.holderCount, State.holderCount, holders]
  shared := by
    intro id holds
    rw [(same id).holds] at holds
    rw [holders, (same id).group (Or.inl holds)]
    exact books.shared id holds
  positive := by
    rw [holders]
    exact books.positive
  alone := by
    rw [holders]
    exact books.alone
  queued id := by rw [books.queued, (same id).queue]
  distinct := books.distinct
  outside := by
    intro id member
    rw [(same id).holds]
    exact books.outside id member
  draining := by
    intro id draining
    rw [holders]
    rcases (same id).drain draining with before | held
    · exact books.draining id before
    · exact held

theorem LockInvariant.recast (lock : LockInvariant state)
    (holders : after.holders = state.holders) (waiters : after.waiters = state.waiters)
    (same : ∀ id, SameForLock state.holders (state.calls id) (after.calls id)) :
    LockInvariant after where
  toLockBooks := by
    rw [waiters]
    exact lock.toLockBooks.recast holders same
  blocked := by
    intro head rest first
    rw [waiters] at first
    have queued := (lock.queued head).mp (by simp [first])
    rw [holders, (same head).group (Or.inr queued)]
    exact lock.blocked head rest first

theorem setCall_calls (state : State) (id other : Nat) (call : Call) :
    (state.setCall id call).calls other = if other = id then call else state.calls other :=
  Function.update_apply _ _ _ _

@[simp]
theorem setCall_self (state : State) (id : Nat) (call : Call) :
    (state.setCall id call).calls id = call := by
  simp [setCall_calls]

theorem setCall_of_ne (state : State) {id other : Nat} (call : Call) (away : other ≠ id) :
    (state.setCall id call).calls other = state.calls other := by
  simp [setCall_calls, away]

variable {id : Nat}

theorem LockInvariant.setCall (lock : LockInvariant state) {call : Call}
    (same : SameForLock state.holders (state.calls id) call) :
    LockInvariant (state.setCall id call) := by
  refine lock.recast rfl rfl fun other => ?_
  by_cases here : other = id
  · subst here
    rw [setCall_self]
    exact same
  · rw [setCall_of_ne state call here]
    exact .refl _ _

/-- A call that can join joins. -/
theorem LockBooks.admitted (books : LockBooks state waiting)
    (outside : (state.calls id).holdsLock = false)
    (joins : State.canJoin (state.calls id).group state.holders = true) :
    LockBooks (state.admitCall id) (waiting.erase id) := by
  have calls : ∀ other, (state.admitCall id).calls other = if other = id then
      { state.calls id with phase := .admitted, holdsLock := true } else state.calls other :=
    fun other => Function.update_apply _ _ _ _
  have holders : (state.admitCall id).holders =
      State.joinHolders (state.calls id).group state.holders := rfl
  obtain ⟨joined, members, card⟩ := books.counted
  have fresh : id ∉ joined := by
    rw [members, outside]
    exact Bool.false_ne_true
  refine ⟨⟨insert id joined, ?_, ?_⟩, ?_, ?_, ?_, ?_, books.distinct.erase id, ?_, ?_⟩
  · intro other
    rw [calls, Finset.mem_insert, members]
    by_cases here : other = id <;> simp [here]
  · rw [Finset.card_insert_of_notMem fresh, card]
    unfold State.holderCount
    rw [holders]
    cases state.holders <;> rfl
  · intro other holds
    rw [calls] at holds ⊢
    rw [holders]
    by_cases here : other = id
    · simp only [here, if_true]
      cases held : state.holders with
      | none => exact ⟨1, rfl⟩
      | some both =>
          obtain ⟨group, count⟩ := both
          rw [held] at joins
          simp only [State.canJoin, groupsShareTheLock, decide_eq_true_eq] at joins
          exact ⟨count + 1, by rw [joins.1]; rfl⟩
    · simp only [here, if_false] at holds ⊢
      obtain ⟨count, held⟩ := books.shared other holds
      exact ⟨count + 1, by rw [held]; rfl⟩
  · intro group count held
    rw [holders] at held
    cases before : state.holders with
    | none =>
        rw [before] at held
        cases held
        exact Nat.one_pos
    | some both =>
        rw [before] at held
        cases held
        exact Nat.succ_pos _
  · intro count held
    rw [holders] at held
    cases before : state.holders with
    | none =>
        rw [before] at held
        exact (congrArg Prod.snd (Option.some.inj held)).symm
    | some both =>
        obtain ⟨group, earlier⟩ := both
        rw [before] at held joins
        cases held
        simp [State.canJoin, groupsShareTheLock] at joins
  · intro other
    rw [books.distinct.mem_erase_iff, books.queued, calls]
    by_cases here : other = id <;> simp [here]
  · intro other member
    obtain ⟨away, member⟩ := books.distinct.mem_erase_iff.mp member
    rw [calls, if_neg away]
    exact books.outside other member
  · intro other draining
    rw [calls] at draining
    by_cases here : other = id
    · simp [here] at draining
    · rw [if_neg here] at draining
      obtain ⟨count, held⟩ := books.draining other draining
      exact ⟨count + 1, by rw [holders, held]; rfl⟩

theorem setPhase_calls (state : State) (id other : Nat) (phase : Phase) :
    ((state.setPhase id phase).calls other) =
      if other = id then { state.calls id with phase } else state.calls other :=
  setCall_calls _ _ _ _

section

variable (books : LockBooks state waiting)
include books

/-- A call that cannot join queues at the end. -/
theorem LockBooks.enqueue (outside : (state.calls id).holdsLock = false)
    (arrives : (state.calls id).phase ≠ .lockQueue)
    (calls : after.calls = (state.setPhase id .lockQueue).calls)
    (holders : after.holders = state.holders) : LockBooks after (waiting ++ [id]) := by
  have fresh : id ∉ waiting := fun member => arrives ((books.queued id).mp member)
  have holds : ∀ other, (after.calls other).holdsLock = (state.calls other).holdsLock := by
    intro other
    rw [calls, setPhase_calls]
    by_cases here : other = id <;> simp [here]
  refine ⟨?_, ?_, holders ▸ books.positive, holders ▸ books.alone, ?_, ?_, ?_, ?_⟩
  · obtain ⟨joined, members, card⟩ := books.counted
    refine ⟨joined, fun other => by rw [members, holds], ?_⟩
    rw [card, State.holderCount, State.holderCount, holders]
  · intro other otherHolds
    rw [holds] at otherHolds
    have away : other ≠ id := by
      rintro rfl
      rw [outside] at otherHolds
      cases otherHolds
    rw [holders, calls, setPhase_calls, if_neg away]
    exact books.shared other otherHolds
  · intro other
    rw [List.mem_append, List.mem_singleton, books.queued, calls, setPhase_calls]
    by_cases here : other = id <;> simp [here]
  · rw [List.nodup_append]
    refine ⟨books.distinct, List.nodup_singleton _, ?_⟩
    rintro other member _ last rfl
    exact fresh (List.mem_singleton.mp last ▸ member)
  · intro other member
    rw [holds]
    rcases List.mem_append.mp member with earlier | last
    · exact books.outside other earlier
    · rw [List.mem_singleton.mp last]
      exact outside
  · intro other draining
    rw [calls, setPhase_calls] at draining
    rw [holders]
    by_cases here : other = id
    · simp [here] at draining
    · rw [if_neg here] at draining
      exact books.draining other draining

/-- A waiter leaves the queue. -/
theorem LockBooks.abandon {call : Call} (waits : (state.calls id).phase = .lockQueue)
    (calls : after.calls = Function.update state.calls id call)
    (holders : after.holders = state.holders) (outside : call.holdsLock = false)
    (leaves : call.phase = .failing) : LockBooks after (waiting.erase id) := by
  have before := books.outside id ((books.queued id).mpr waits)
  have holds : ∀ other, (after.calls other).holdsLock = (state.calls other).holdsLock := by
    intro other
    rw [calls, Function.update_apply]
    by_cases here : other = id <;> simp [here, outside, before]
  refine ⟨?_, ?_, holders ▸ books.positive, holders ▸ books.alone, ?_, books.distinct.erase id,
    ?_, ?_⟩
  · obtain ⟨joined, members, card⟩ := books.counted
    refine ⟨joined, fun other => by rw [members, holds], ?_⟩
    rw [card, State.holderCount, State.holderCount, holders]
  · intro other otherHolds
    rw [holds] at otherHolds
    have away : other ≠ id := by
      rintro rfl
      rw [before] at otherHolds
      cases otherHolds
    rw [holders, calls, Function.update_of_ne away]
    exact books.shared other otherHolds
  · intro other
    rw [books.distinct.mem_erase_iff, books.queued, calls, Function.update_apply]
    by_cases here : other = id <;> simp [here, leaves]
  · intro other member
    rw [holds]
    exact books.outside other (books.distinct.mem_erase_iff.mp member).2
  · intro other draining
    rw [calls, Function.update_apply] at draining
    rw [holders]
    by_cases here : other = id
    · simp [here, leaves] at draining
    · rw [if_neg here] at draining
      exact books.draining other draining

/-- Admitting waiters from the front of the queue settles the lock. -/
theorem LockBooks.pumpFrom : LockInvariant (State.pumpFrom waiting state) := by
  induction waiting generalizing state with
  | nil => exact ⟨books.recast rfl fun _ => .refl _ _, by rintro _ _ ⟨⟩⟩
  | cons head rest ih =>
      unfold State.pumpFrom
      split
      next joins =>
        have admitted := books.admitted (books.outside head List.mem_cons_self) joins
        rw [List.erase_cons_head] at admitted
        exact ih admitted
      next stays =>
        refine ⟨books.recast rfl fun _ => .refl _ _, ?_⟩
        rintro first others same
        cases same
        exact Bool.not_eq_true _ ▸ stays

theorem pumpFrom_passive (other : Nat) :
    Passive (state.calls other) ((State.pumpFrom waiting state).calls other) := by
  induction waiting generalizing state with
  | nil => exact .same _
  | cons head rest ih =>
      unfold State.pumpFrom
      split
      next joins =>
        have admitted := books.admitted (books.outside head List.mem_cons_self) joins
        rw [List.erase_cons_head] at admitted
        refine Passive.trans ?_ (ih admitted)
        have calls : (state.admitCall head).calls other = if other = head then
            { state.calls head with phase := .admitted, holdsLock := true }
            else state.calls other := Function.update_apply _ _ _ _
        rw [calls]
        by_cases here : other = head
        · subst here
          rw [if_pos rfl]
          exact .admitted ((books.queued other).mp List.mem_cons_self)
        · rw [if_neg here]
          exact .same _
      next stays => exact .same _

end

/-- What is left of the holders after one of them leaves, before others are admitted. -/
theorem LockBooks.leave (books : LockBooks state waiting) {id count : Nat} {group : LockGroup}
    (holds : (state.calls id).holdsLock = true) (held : state.holders = some (group, count + 1))
    (more : 0 < count) :
    LockBooks { state.setCall id { state.calls id with holdsLock := false } with
      holders := some (group, count) } waiting := by
  have calls := setCall_calls state id
  obtain ⟨joined, members, card⟩ := books.counted
  refine ⟨⟨joined.erase id, ?_, ?_⟩, ?_, ?_, ?_, ?_, books.distinct, ?_, ?_⟩
  · intro other
    rw [Finset.mem_erase, members]
    rw [calls]
    by_cases here : other = id <;> simp [here]
  · rw [Finset.card_erase_of_mem ((members id).mpr holds), card, State.holderCount, held]
    rfl
  · intro other otherHolds
    rw [calls] at otherHolds ⊢
    by_cases here : other = id
    · simp [here] at otherHolds
    · rw [if_neg here] at otherHolds ⊢
      obtain ⟨_, same⟩ := books.shared other otherHolds
      rw [held] at same
      cases same
      exact ⟨count, rfl⟩
  · rintro _ _ ⟨⟩
    exact more
  · rintro _ ⟨⟩
    have single := books.alone _ held
    omega
  · intro other
    rw [books.queued, calls]
    by_cases here : other = id <;> simp [here]
  · intro other member
    rw [calls]
    by_cases here : other = id
    · simp [here]
    · rw [if_neg here]
      exact books.outside other member
  · intro other draining
    rw [calls] at draining
    have before : (state.calls other).phase = .drainWait := by
      by_cases here : other = id <;> simpa [here] using draining
    obtain ⟨_, same⟩ := books.draining other before
    rw [held] at same
    cases same
    exact ⟨count, rfl⟩

/-- The last holder leaves a free lock that nobody drains. -/
theorem LockBooks.free (books : LockBooks state waiting) {group : LockGroup} (holds : (state.calls id).holdsLock = true)
    (held : state.holders = some (group, 1)) (free : after.holders = none)
    (calls : ∀ other, (after.calls other).holdsLock =
        (if other = id then false else (state.calls other).holdsLock) ∧
      ((after.calls other).phase = .lockQueue ↔ (state.calls other).phase = .lockQueue) ∧
      (after.calls other).phase ≠ .drainWait) : LockBooks after waiting := by
  obtain ⟨joined, members, card⟩ := books.counted
  rw [State.holderCount, held] at card
  obtain ⟨only, rfl⟩ := Finset.card_eq_one.mp card
  have nobody : ∀ other, (after.calls other).holdsLock = false := by
    intro other
    rw [(calls other).1]
    by_cases here : other = id
    · simp [here]
    · rw [if_neg here, Bool.eq_false_iff]
      intro otherHolds
      have first := Finset.mem_singleton.mp ((members other).mpr otherHolds)
      have second := Finset.mem_singleton.mp ((members id).mpr holds)
      exact here (first.trans second.symm)
  refine ⟨⟨∅, ?_, ?_⟩, ?_, ?_, ?_, ?_, books.distinct, ?_, ?_⟩
  · intro other
    simp [nobody other]
  · rw [State.holderCount, free]
    rfl
  · intro other otherHolds
    rw [nobody other] at otherHolds
    cases otherHolds
  · intro _ _ impossible
    rw [free] at impossible
    cases impossible
  · intro _ impossible
    rw [free] at impossible
    cases impossible
  · intro other
    rw [books.queued, (calls other).2.1]
  · intro other _
    exact nobody other
  · intro other impossible
    exact absurd impossible (calls other).2.2

/-- The calls after a holder left, before others are admitted. -/
theorem releaseLock_spec (lock : LockInvariant state) (holds : (state.calls id).holdsLock = true)
    (stays : (state.calls id).phase ≠ .drainWait) :
    LockInvariant (state.releaseLock id) ∧
      ∀ other, Passive
        ((state.setCall id { state.calls id with holdsLock := false }).calls other)
        ((state.releaseLock id).calls other) := by
  obtain ⟨count, held⟩ := lock.shared id holds
  have positive := lock.positive _ _ held
  unfold State.releaseLock
  have same : (state.setCall id { state.calls id with holdsLock := false }).holders =
      some ((state.calls id).group, count) := held
  dsimp only
  rw [same]
  dsimp only
  split
  next more =>
    obtain ⟨rest, rfl⟩ : ∃ rest, count = rest + 1 := ⟨count - 1, by omega⟩
    have books := lock.toLockBooks.leave holds held (by omega)
    refine ⟨⟨books, ?_⟩, fun other => .same _⟩
    intro head others first
    have waits : head ≠ id := by
      rintro rfl
      rw [lock.outside head (by rw [show state.waiters = head :: others from first]; simp)] at holds
      cases holds
    have blocked := lock.blocked head others first
    rw [held] at blocked
    rw [setCall_of_ne _ _ waits]
    exact blocked
  next last =>
    obtain rfl : count = 1 := by omega
    let given := state.setCall id { state.calls id with holdsLock := false }
    generalize whole : (if (state.calls id).group = .mutation then
      State.wakeDrainWaiters { given with holders := none }
      else { given with holders := none }) = free
    have waiters : free.waiters = state.waiters := by
      rw [← whole]
      split <;> rfl
    have moved : ∀ other, (free.calls other = given.calls other ∨
        ((given.calls other).phase = .drainWait ∧
          free.calls other = { given.calls other with phase := .drained })) ∧
        (free.calls other).phase ≠ .drainWait := by
      intro other
      rw [← whole]
      split
      next =>
        simp only [State.wakeDrainWaiters]
        split
        next drain => exact ⟨Or.inr ⟨drain, rfl⟩, by simp⟩
        next awake => exact ⟨Or.inl rfl, awake⟩
      next different =>
        refine ⟨Or.inl rfl, fun drain => different ?_⟩
        have before : (state.calls other).phase = .drainWait := by
          rw [setCall_calls] at drain
          by_cases here : other = id <;> simpa [here] using drain
        obtain ⟨_, mutation⟩ := lock.draining other before
        rw [held] at mutation
        exact congrArg Prod.fst (Option.some.inj mutation)
    have books : LockBooks free state.waiters := by
      refine lock.toLockBooks.free holds held ?_ fun other => ⟨?_, ?_, (moved other).2⟩
      · rw [← whole]
        split <;> rfl
      · have same : (given.calls other).holdsLock =
            if other = id then false else (state.calls other).holdsLock := by
          rw [setCall_calls]
          split <;> rfl
        rw [← same]
        rcases (moved other).1 with still | ⟨-, awake⟩
        · rw [still]
        · rw [awake]
      · have same : (given.calls other).phase = (state.calls other).phase := by
          rw [setCall_calls]
          by_cases here : other = id <;> simp [here]
        rw [← same]
        rcases (moved other).1 with still | ⟨drain, awake⟩
        · rw [still]
        · simp [awake, drain]
    unfold State.pumpLock
    rw [waiters]
    refine ⟨books.pumpFrom, fun other => ?_⟩
    have awakened : Passive (given.calls other) (free.calls other) := by
      rcases (moved other).1 with still | ⟨drain, awake⟩
      · rw [still]
        exact .same _
      · rw [awake]
        exact .drained drain
    exact awakened.trans (pumpFrom_passive books other)

end Books

end PiAdaptative.MutationLock
