import PiAdaptative.MutationLock.EmissionOrder
import PiAdaptative.MutationLock.PathQueues

/-!
# What the lock excludes and orders

The holders of the lock exclude each other as their groups say in every run.  Turns on a file, the
emission order and aborts hold as long as no step registers a mutation beside an unfinished one,
puts a call before one that has passed, or aborts a command run that is already committed.
-/

namespace PiAdaptative.MutationLock

/-- Who runs at the same time as whom. -/
structure Excludes (state : State) : Prop where
  /-- No mutation body runs beside the body of a command run that holds the lock. -/
  apart : ∀ mutation command, (state.calls mutation).phase = .body →
    (state.calls mutation).group = .mutation → (state.calls command).phase = .body →
    (state.calls command).group ≠ .mutation → (state.calls command).holdsLock = false
  alone : ∀ command other, (state.calls command).group = .exclusive →
    (state.calls command).holdsLock = true → (state.calls other).holdsLock = true →
    other = command
  /-- The count is the number of calls that joined and have not released. -/
  counted : ∃ joined : Finset Nat, (∀ id, id ∈ joined ↔ (state.calls id).holdsLock = true) ∧
    joined.card = state.holderCount

variable {state : State}

theorem Core.excludes (core : Core state) : Excludes state where
  apart mutation command runs isMutation runs' isCommand := by
    have holds : (state.calls mutation).holdsLock = true := by
      have fits := core.fits mutation
      simp only [Call.Fits, runs] at fits
      exact fits isMutation
    rw [Bool.eq_false_iff]
    intro holds'
    obtain ⟨_, held⟩ := core.lock.shared mutation holds
    obtain ⟨_, held'⟩ := core.lock.shared command holds'
    rw [held] at held'
    have same := congrArg Prod.fst (Option.some.inj held')
    exact isCommand (same.symm.trans isMutation)
  alone command other exclusive holds holds' := by
    obtain ⟨joined, members, card⟩ := core.lock.counted
    obtain ⟨count, held⟩ := core.lock.shared command holds
    rw [exclusive] at held
    obtain rfl := core.lock.alone count held
    rw [State.holderCount, held] at card
    obtain ⟨only, rfl⟩ := Finset.card_eq_one.mp card
    have first := Finset.mem_singleton.mp ((members command).mpr holds)
    have second := Finset.mem_singleton.mp ((members other).mpr holds')
    exact second.trans first.symm
  counted := core.lock.counted

variable {before after : Call} {permitted : Right → Prop}

theorem Move.takes {id : Nat} (moved : Move permitted id before after)
    (outside : before.holdsLock = false) (holds : after.holdsLock = true) : before.Passed := by
  cases moved with
  | passive moved =>
      cases moved with
      | admitted waiting => exact Or.inr waiting
      | _ => exact absurd holds (by simp [outside])
  | takeLock cleared => exact Or.inl cleared
  | handOff _ _ still => exact absurd holds (by simp [still, outside])
  | _ => exact absurd holds (by simp [outside, idleCall])

/-- Whether a command run starts its body without another look at its signal. -/
def Call.Committed (call : Call) : Prop :=
  call.group ≠ .mutation ∧
    (call.phase = .admitted ∨ call.phase = .drained ∨
      call.phase = .cleared ∧ call.lockless = true)

/-- An aborted call neither waits nor is committed. -/
structure Call.Heeds (call : Call) : Prop where
  emission : ∀ index, call.phase = .emissionWait index → call.aborted = false
  lock : call.phase = .lockQueue → call.aborted = false
  drain : call.phase = .drainWait → call.aborted = false
  committed : call.Committed → call.aborted = false

/-- A step that aborts a committed command run, or hands off an aborted one. -/
def AbortsLate (state : State) : Event → Prop
  | .abort id => (state.calls id).Committed
  | .handOff callId announcer => ∃ id, state.exclusiveHolds (callId, announcer) = some id ∧
      (state.calls id).phase = .cleared ∧ (state.calls id).aborted = true
  | _ => False

theorem Passive.heeds (moved : Passive before after) (heeds : before.Heeds) : after.Heeds := by
  cases moved with
  | same => exact heeds
  | cleared waiting =>
      have running := heeds.emission _ waiting
      exact ⟨fun _ _ => running, fun _ => running, fun _ => running, fun _ => running⟩
  | admitted waiting =>
      have running := heeds.lock waiting
      exact ⟨fun _ _ => running, fun _ => running, fun _ => running, fun _ => running⟩
  | drained waiting =>
      have running := heeds.drain waiting
      exact ⟨fun _ _ => running, fun _ => running, fun _ => running, fun _ => running⟩

theorem Call.heeds_of_running {call : Call} (running : call.aborted = false) : call.Heeds :=
  ⟨fun _ _ => running, fun _ => running, fun _ => running, fun _ => running⟩

theorem Call.heeds_elsewhere {call : Call} (emission : ∀ index, call.phase ≠ .emissionWait index)
    (lock : call.phase ≠ .lockQueue) (drain : call.phase ≠ .drainWait)
    (committed : ¬call.Committed) : call.Heeds :=
  ⟨fun index waits => absurd waits (emission index), fun waits => absurd waits lock,
    fun waits => absurd waits drain, fun there => absurd there committed⟩

theorem Move.heeds {id : Nat} (moved : Move permitted id before after) (fits : before.Fits)
    (heeds : before.Heeds)
    (handOffs : permitted (.handOff id) → before.phase = .cleared → before.aborted = false)
    (aborts : permitted (.abort id) → ¬before.Committed) : after.Heeds := by
  cases moved with
  | passive moved => exact moved.heeds heeds
  | startMutation => exact Call.heeds_of_running rfl
  | startCommand => exact Call.heeds_of_running rfl
  | check phase _ registered waits =>
      rcases waits with rfl | ⟨index, rfl, running⟩
      · refine Call.heeds_elsewhere (by simp) (by simp) (by simp) ?_
        simp only [Call.Fits, registered] at fits
        exact fun committed => committed.1 fits.2
      · exact Call.heeds_of_running running
  | takeLock _ running => exact Call.heeds_of_running running
  | queue _ running => exact Call.heeds_of_running running
  | drop queued phase command lockless joined goes =>
      rcases goes with rfl | ⟨rfl, running⟩ | ⟨rfl, -⟩
      · refine Call.heeds_of_running (heeds.committed ⟨command, ?_⟩)
        rcases joined with cleared | admitted
        · exact Or.inr (Or.inr ⟨cleared, lockless⟩)
        · exact Or.inl admitted
      · exact Call.heeds_of_running running
      · exact Call.heeds_elsewhere (by simp) (by simp) (by simp) (by simp [Call.Committed])
  | enter _ _ _ running => exact Call.heeds_of_running running
  | turn _ running => exact Call.heeds_of_running running
  | handOff right moved still command queued =>
      have woken := moved.heeds heeds
      refine ⟨woken.emission, woken.lock, woken.drain, ?_⟩
      rintro ⟨group, admitted | drained | ⟨cleared, -⟩⟩
      · exact woken.committed ⟨group, Or.inl admitted⟩
      · exact woken.committed ⟨group, Or.inr (Or.inl drained)⟩
      · cases moved with
        | same => exact handOffs right cleared
        | cleared waiting => exact heeds.emission _ waiting
        | admitted => cases cleared
        | drained => cases cleared
  | release => exact ⟨heeds.emission, heeds.lock, heeds.drain, heeds.committed⟩
  | abort right elsewhere =>
      exact Call.heeds_elsewhere elsewhere.2.1 elsewhere.2.2.1 elsewhere.2.2.2.2 (aborts right)
  | _ => exact Call.heeds_elsewhere (by simp) (by simp) (by simp) (by simp [Call.Committed])

/-- A body starts only for a call whose signal has not aborted. -/
theorem Move.starts {id : Nat} (moved : Move permitted id before after) (fits : before.Fits)
    (heeds : before.Heeds) (outside : before.phase ≠ .body) (runs : after.phase = .body) :
    before.aborted = false := by
  cases moved with
  | passive moved => cases moved <;> simp_all
  | startCommand _ _ _ _ _ _ _ waits => rcases waits with rfl | ⟨_, rfl⟩ <;> cases runs
  | check _ _ _ waits => rcases waits with rfl | ⟨_, rfl, -⟩ <;> cases runs
  | drop _ _ _ _ _ goes => rcases goes with rfl | ⟨rfl, -⟩ | ⟨rfl, -⟩ <;> cases runs
  | run admitted command => exact heeds.committed ⟨command, Or.inl admitted⟩
  | turn _ running => exact running
  | runLockless drained =>
      simp only [Call.Fits, drained] at fits
      exact heeds.committed ⟨fits.2, Or.inr (Or.inl drained)⟩
  | handOff _ moved => cases moved <;> simp_all
  | release => exact absurd runs outside
  | abort => exact absurd runs outside
  | _ => cases runs

variable {event : Event}

theorem heeds_step {before after : State} (core : Core before)
    (heeds : ∀ id, (before.calls id).Heeds) (taken : Step before event after)
    (timely : ¬AbortsLate before event) (id : Nat) : (after.calls id).Heeds := by
  refine ((core_step core taken).2 id).heeds (core.fits id) (heeds id) ?_ ?_
  · intro right cleared
    cases event with
    | handOff callId announcer =>
        rw [Bool.eq_false_iff]
        exact fun aborted => timely ⟨id, right, cleared, aborted⟩
    | _ => exact False.elim right
  · intro right committed
    cases event with
    | abort other =>
        obtain rfl : other = id := right
        exact timely committed
    | _ => exact False.elim right

/-- A step that the lock does not survive. -/
def Breaks (state : State) (event : Event) : Prop :=
  RegistersBeside state event ∨ Overtakes state event ∨ AbortsLate state event

/-- What a run without such a step has established. -/
structure Established (state : State) : Prop where
  core : Core state
  turns : Turns state
  order : OrderInvariant state
  heeds : ∀ id, (state.calls id).Heeds

theorem established_initialState : Established initialState where
  core := core_initialState
  turns := {
    toRegistrations := registrations_initialState
    covers := fun _ _ _ present => nomatch present
    ordered := by
      intro earlier id later split
      exact absurd (congrArg List.length split) (by simp [initialState]) }
  order := orderInvariant_initialState
  heeds _ := Call.heeds_of_running rfl

theorem established_step {before after : State} (established : Established before)
    (taken : Step before event after) (timely : ¬Breaks before event) : Established after where
  core := (core_step established.core taken).1
  turns := turns_step established.core established.turns taken fun beside => timely (Or.inl beside)
  order := order_step established.order taken fun overtakes => timely (Or.inr (Or.inl overtakes))
  heeds := heeds_step established.core established.heeds taken
    fun late => timely (Or.inr (Or.inr late))

theorem Established.of_run {history : List (State × Event)}
    (run : Execution Step initialState history state)
    (timely : ∀ entry ∈ history, ¬Breaks entry.1 entry.2) : Established state :=
  (run.restrict (fun before event => ¬Breaks before event) timely).preserves Established
    established_initialState fun established taken => established_step established taken.1 taken.2

/-- The exclusion and the turns in one state. -/
structure Sound (state : State) : Prop extends Excludes state where
  /-- The mutations of one file run in the order of their registration. -/
  inTurn : RunsInTurn state
  /-- The bodies of two mutations of one file never run at the same time. -/
  oneBody : ∀ first second, (state.calls first).phase = .body →
    (state.calls second).phase = .body → (state.calls first).group = .mutation →
    (state.calls second).group = .mutation →
    (state.calls first).key = (state.calls second).key → first = second

/-- What a step may do: a call takes the lock only when no call emitted earlier is pending, and an
aborted call starts no body. -/
structure Orderly (before after : State) : Prop where
  admits : ∀ id, (before.calls id).holdsLock = false → (after.calls id).holdsLock = true →
    ¬PendingBefore before (before.calls id)
  starts : ∀ id, (before.calls id).phase ≠ .body → (after.calls id).phase = .body →
    (before.calls id).aborted = false

/-- In every run in which no mutation registers beside an unfinished one, no call is put before one
that has passed and no committed command run is aborted, the lock excludes and orders. -/
theorem lock_excludes_and_orders {state : State} {history : List (State × Event)}
    (run : Execution Step initialState history state)
    (timely : ∀ entry ∈ history, ¬Breaks entry.1 entry.2) :
    Sound state ∧ ∀ event after, Step state event after → Orderly state after := by
  have established := Established.of_run run timely
  refine ⟨⟨established.core.excludes, established.turns.runsInTurn, ?_⟩, ?_⟩
  · intro first second runs runs' mutation mutation' same
    exact established.turns.one_body runs runs' mutation mutation' same
  · intro event after taken
    have moves := (core_step established.core taken).2
    refine ⟨fun id outside holds => ?_, fun id outside runs => ?_⟩
    · exact established.order.passed id ((moves id).takes outside holds)
    · exact (moves id).starts (established.core.fits id) (established.heeds id) outside runs

/-- The steps that cannot break the lock. -/
def Event.isCalm : Event → Bool
  | .announce _ _ _ _ _ => false
  | .startCommand _ _ _ => false
  | .register _ _ => false
  | .handOff _ _ => false
  | .abort _ => false
  | _ => true

theorem Event.not_breaks (calm : event.isCalm = true) : ¬Breaks state event := by
  cases event with
  | announce => cases calm
  | startCommand => cases calm
  | register => cases calm
  | handOff => cases calm
  | abort => cases calm
  | _ => rintro (beside | overtakes | late) <;> assumption

/-- A single mutation runs its body in order. -/
theorem single_mutation_is_sound : ∃ history state,
    Execution Step initialState history state ∧
      history.map Prod.snd = mutationSteps 0 "f" ++ [.settlePath 0, .resume 0] ∧
      (state.calls 0).phase = .body ∧ Sound state := by
  let called := initialState.startMutation 0 none none
  have first : Execution Step initialState
      [(initialState, .startMutation 0 none none), (called, .register 0 "f")]
      (called.register 0 "f") := .extend (.extend (.start _) rfl) rfl
  obtain ⟨state, found, runs⟩ : ∃ state, [Event.resume 0, .resume 0, .resume 0, .settlePath 0,
      .resume 0].foldlM next (called.register 0 "f") = some state ∧
        (state.calls 0).phase = .body := by
    have phase : ([Event.resume 0, .resume 0, .resume 0, .settlePath 0, .resume 0].foldlM next
        (called.register 0 "f")).map (fun state => (state.calls 0).phase) = some .body := by
      decide +kernel
    exact Option.map_eq_some_iff.mp phase
  obtain ⟨later, rest, labels⟩ := Execution.of_foldlM found
  refine ⟨_, state, first.trans rest, by simp [labels, mutationSteps], runs,
    (lock_excludes_and_orders (first.trans rest) ?_).1⟩
  intro entry member
  rcases List.mem_append.mp member with early | last
  · rcases List.mem_cons.mp early with rfl | early
    · exact Event.not_breaks rfl
    · obtain rfl := List.mem_singleton.mp early
      rintro (⟨-, other, own, -⟩ | overtakes | late)
      · by_cases here : other = 0
        · subst here
          cases own
        · rw [show called.calls other = idleCall from setCall_of_ne initialState _ here] at own
          cases own
      · exact overtakes
      · exact late
  · have calm : ∀ event ∈ later.map Prod.snd, event.isCalm = true := by
      rw [labels]
      decide
    exact Event.not_breaks (calm _ (List.mem_map_of_mem last))

/-- Three mutations of one file: the first runs, the second is abandoned while it waits and takes
the queue of the file away, the third does not wait. -/
def abandonedQueueSteps : List Event :=
  mutationSteps 0 "f" ++ [.settlePath 0, .resume 0] ++ mutationSteps 1 "f" ++
    [.abort 1, .finish 1] ++ mutationSteps 2 "f" ++ [.settlePath 2, .resume 2]

theorem abandoned_queue_lets_mutations_overlap : ∃ history state,
    Execution Step initialState history state ∧
      history.map Prod.snd = abandonedQueueSteps ∧
      (∀ id ∈ [0, 2], (state.calls id).phase = .body ∧ (state.calls id).group = .mutation ∧
        (state.calls id).key = some "f") ∧ ¬Sound state := by
  have bodies : (abandonedQueueSteps.foldlM next initialState).map (fun state =>
      [0, 2].all fun id => (state.calls id).phase = .body ∧ (state.calls id).group = .mutation ∧
        (state.calls id).key = some "f") = some true := by
    decide +kernel
  obtain ⟨state, found, same⟩ := Option.map_eq_some_iff.mp bodies
  simp only [List.all_eq_true, decide_eq_true_eq] at same
  obtain ⟨history, run, labels⟩ := Execution.of_foldlM found
  refine ⟨history, state, run, labels, same, fun sound => ?_⟩
  obtain ⟨runs, mutation, own⟩ := same 0 (by simp)
  obtain ⟨runs', mutation', own'⟩ := same 2 (by simp)
  have impossible := sound.oneBody 0 2 runs runs' mutation mutation' (own.trans own'.symm)
  cases impossible

end PiAdaptative.MutationLock
