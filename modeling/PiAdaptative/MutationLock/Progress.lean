import PiAdaptative.MutationLock.EmissionOrder
import PiAdaptative.MutationLock.PathQueues

/-!
# When the waits come to an end

A call waits for a place in a queue, for calls emitted earlier, for the lock, for its turn on a file
or for running mutations.  These waits form no cycle unless a mutation that already holds the lock
waits for its turn behind one that still waits for earlier calls or for the lock.
-/

namespace PiAdaptative.MutationLock

/-- Whether a call was made and has not ended. -/
def Call.UnderWay (call : Call) : Prop := call.phase ≠ .idle ∧ call.phase ≠ .ended

/-- Whether a call was made, does not run its body and has not ended. -/
def Call.Waits (call : Call) : Prop := call.UnderWay ∧ call.phase ≠ .body

/-- Whether a step is the next step of a waiting call. -/
def Continues (state : State) : Event → Prop
  | .register _ _ => True
  | .skipRegistration _ => True
  | .loseRegistration _ => True
  | .resume _ => True
  | .settlePath _ => True
  | .finish id => (state.calls id).phase = .failing
  | _ => False

/-- Whether the host has not called or retired yet what it announced. -/
def HostOwes (state : State) : Prop :=
  ∃ callId announcer announcement,
    state.announcements.get? (callId, announcer) = some announcement ∧
      announcement.joined = false ∧
      ∀ id, (state.calls id).callId = some callId → (state.calls id).announcer = announcer →
        ¬(state.calls id).UnderWay

/-- A waiting call can take its next step, a body runs, or the host has to call what it announced. -/
def Progress (state : State) : Prop :=
  (∃ event after, Continues state event ∧ Step state event after) ∨
    (∃ id, (state.calls id).phase = .body) ∨ HostOwes state

/-- A mutation with the lock waits for its turn behind one that waits for earlier calls or for the
lock. -/
def Inverted (state : State) : Prop :=
  ∃ id, (state.calls id).phase = .pathWait ∧ ∃ earlier ∈ (state.calls id).currentQueue,
    (state.calls earlier).phase = .lockQueue ∨
      ∃ index, (state.calls earlier).phase = .emissionWait index

/-- A step that announces again a call under way. -/
def Reannounces (state : State) : Event → Prop
  | .announce callId _ _ _ announcer => ∃ id, (state.calls id).callId = some callId ∧
      (state.calls id).announcer = announcer ∧ (state.calls id).UnderWay
  | _ => False

/-- The queue behind a member of a queue is the one the member found. -/
structure Places (state : State) : Prop where
  queues : ∀ key queue before id rest, state.queues key = some queue →
    queue = before ++ id :: rest → (state.calls id).currentQueue = rest ∧
      (state.calls id).key ≠ none
  found : ∀ owner before id rest, (state.calls owner).currentQueue = before ++ id :: rest →
    (state.calls id).currentQueue = rest ∧ (state.calls id).key ≠ none
  mutations : ∀ id, (state.calls id).key ≠ none → (state.calls id).group = .mutation

theorem places_initialState : Places initialState where
  queues _ _ _ _ _ present := nomatch present
  found _ before _ _ split := by
    have length := congrArg List.length split
    simp [initialState, idleCall] at length
  mutations _ placed := absurd rfl placed

variable {permitted : Right → Prop} {id : Nat}

/-- A mutation with a place stays one. -/
theorem Move.mutation {before after : Call} (moved : Move permitted id before after)
    (elsewhere : ¬permitted .place) (placed : after.key ≠ none)
    (mutation : before.key ≠ none → before.group = .mutation) : after.group = .mutation := by
  cases moved with
  | passive moved => cases moved <;> exact mutation placed
  | startMutation => rfl
  | startCommand => exact absurd rfl placed
  | register _ _ right => exact absurd right elsewhere
  | handOff _ moved => cases moved <;> exact mutation placed
  | _ => exact mutation placed

variable {before after : State}

theorem Places.keep (places : Places before) (registrations : Registrations before)
    (moves : ∀ id, Move permitted id (before.calls id) (after.calls id))
    (elsewhere : ¬permitted .place)
    (queues : ∀ key, after.queues key = before.queues key ∨ after.queues key = none) :
    Places after := by
  have place := fun id => (moves id).place
    (fun idle => registrations.unplaced id (Or.inl idle)) elsewhere
  refine ⟨?_, ?_, ?_⟩
  · intro key queue earlier id rest present split
    rw [(place id).1, (place id).2]
    rcases queues key with same | gone
    · rw [same] at present
      exact places.queues key queue earlier id rest present split
    · rw [gone] at present
      cases present
  · intro owner earlier id rest split
    rw [(place owner).2] at split
    rw [(place id).1, (place id).2]
    exact places.found owner earlier id rest split
  · intro id placed
    exact (moves id).mutation elsewhere placed (places.mutations id)

variable {state : State}

theorem Places.register (places : Places state) (registrations : Registrations state)
    (fits : (state.calls id).Fits) (key : String)
    (registering : (state.calls id).phase = .registering) : Places (state.register id key) := by
  obtain ⟨unplaced, -⟩ := registrations.unplaced id (Or.inr registering)
  have kept : ∀ other rest, (state.calls other).currentQueue = rest ∧
        (state.calls other).key ≠ none →
      ((state.register id key).calls other).currentQueue = rest ∧
        ((state.register id key).calls other).key ≠ none := by
    rintro other rest ⟨queue, placed⟩
    have away : other ≠ id := by
      rintro rfl
      exact placed unplaced
    rw [register_calls, if_neg away]
    exact ⟨queue, placed⟩
  have members : ∀ earlier other rest, (state.queues key).getD [] = earlier ++ other :: rest →
      (state.calls other).currentQueue = rest ∧ (state.calls other).key ≠ none := by
    intro earlier other rest split
    cases present : state.queues key with
    | none =>
        rw [present] at split
        have length := congrArg List.length split
        simp at length
    | some queue =>
        rw [present] at split
        exact places.queues key queue earlier other rest present split
  refine ⟨?_, ?_, ?_⟩
  · intro name queue earlier other rest present split
    rw [show (state.register id key).queues = Function.update state.queues key
      (some (id :: (state.queues key).getD [])) from rfl, Function.update_apply] at present
    by_cases same : name = key
    · rw [if_pos same, Option.some.injEq] at present
      subst present
      cases earlier with
      | nil =>
          obtain ⟨rfl, rfl⟩ := split
          rw [register_calls, if_pos rfl]
          exact ⟨rfl, by simp⟩
      | cons first others =>
          simp only [List.cons_append, List.cons.injEq] at split
          exact kept other rest (members others other rest split.2)
    · rw [if_neg same] at present
      exact kept other rest (places.queues name queue earlier other rest present split)
  · intro owner earlier other rest split
    rw [register_calls] at split
    by_cases here : owner = id
    · rw [if_pos here] at split
      exact kept other rest (members earlier other rest split)
    · rw [if_neg here] at split
      exact kept other rest (places.found owner earlier other rest split)
  · intro other placed
    rw [register_calls] at placed ⊢
    by_cases here : other = id
    · rw [if_pos here]
      simp only [Call.Fits, registering] at fits
      exact fits.2
    · rw [if_neg here] at placed ⊢
      exact places.mutations other placed

variable {event : Event}

theorem places_step (core : Core before) (registrations : Registrations before)
    (places : Places before) (taken : Step before event after) : Places after := by
  by_cases elsewhere : ¬event.permits before .place
  · obtain ⟨-, queues⟩ := queues_step taken elsewhere
    exact places.keep registrations (core_step core taken).2 elsewhere queues
  · cases event with
    | register id key =>
        simp only [Step, next, Option.ite_none_right_eq_some, Option.some.injEq] at taken
        obtain ⟨⟨-, registering⟩, rfl⟩ := taken
        exact places.register registrations (core.fits id) key registering
    | _ => exact absurd (fun impossible => impossible) elsewhere

/-- A member of a queue found a shorter queue. -/
theorem Places.shorter (places : Places state) {owner id : Nat}
    (member : id ∈ (state.calls owner).currentQueue) :
    (state.calls id).currentQueue.length < (state.calls owner).currentQueue.length ∧
      (state.calls id).key ≠ none := by
  obtain ⟨before, rest, split⟩ := List.append_of_mem member
  obtain ⟨same, placed⟩ := places.found owner before id rest split
  refine ⟨?_, placed⟩
  rw [same, split]
  simp only [List.length_append, List.length_cons]
  omega

/-- Only the call of a mutation makes a call register. -/
theorem Move.registering {before after : Call} (moved : Move permitted id before after)
    (waits : after.phase = .registering) :
    before.phase = .registering ∨ permitted (.callMutation id) := by
  cases moved with
  | passive moved => cases moved <;> simp_all
  | startMutation _ _ right => exact Or.inr right
  | startCommand _ _ _ _ _ _ _ goes => rcases goes with rfl | ⟨_, rfl⟩ <;> cases waits
  | check _ _ _ goes => rcases goes with rfl | ⟨_, rfl, -⟩ <;> cases waits
  | drop _ _ _ _ _ goes => rcases goes with rfl | ⟨rfl, -⟩ | ⟨rfl, -⟩ <;> cases waits
  | handOff _ moved => cases moved <;> simp_all
  | release => exact Or.inl waits
  | abort => exact Or.inl waits
  | _ => cases waits

/-- Every registering mutation is listed. -/
def RegisteringListed (state : State) : Prop :=
  ∀ id, (state.calls id).phase = .registering → id ∈ state.registrations

theorem registeringListed_step (core : Core before) (listed : RegisteringListed before)
    (taken : Step before event after) : RegisteringListed after := by
  have removed : ∀ id, before.registrations.head? = some id →
      (after.calls id).phase ≠ .registering → after.registrations = before.registrations.tail →
      ∀ other, (after.calls other).phase = .registering → (before.calls other).phase = .registering →
        other ∈ after.registrations := by
    intro id first gone rest other waits waits'
    have member := listed other waits'
    rw [List.eq_cons_of_mem_head? first, List.mem_cons] at member
    rcases member with rfl | member
    · exact absurd waits gone
    · exact rest ▸ member
  have moves := (core_step core taken).2
  intro other waits
  cases event with
  | startMutation id callId announcer =>
      simp only [Step, next, Option.ite_none_right_eq_some, Option.some.injEq] at taken
      obtain ⟨-, rfl⟩ := taken
      change other ∈ before.registrations ++ [id]
      rw [List.mem_append, List.mem_singleton]
      rcases (moves other).registering waits with before | called
      · exact Or.inl (listed other before)
      · exact Or.inr called.symm
  | register id key =>
      have before := ((moves other).registering waits).resolve_right fun impossible => impossible
      simp only [Step, next, Option.ite_none_right_eq_some, Option.some.injEq] at taken
      obtain ⟨⟨first, -⟩, rfl⟩ := taken
      refine removed id first ?_ rfl other waits before
      rw [register_calls, if_pos rfl]
      simp
  | skipRegistration id =>
      have waited := ((moves other).registering waits).resolve_right fun impossible => impossible
      simp only [Step, next, Option.ite_none_right_eq_some] at taken
      obtain ⟨first, taken⟩ := taken
      split at taken
      next registering =>
        cases taken
        refine removed id first ?_ rfl other waits waited
        rw [setPhase_calls, if_pos rfl]
        simp
      next elsewhere =>
        cases taken
        exact removed id first elsewhere rfl other waits waited
  | _ =>
      have before := ((moves other).registering waits).resolve_right fun impossible => impossible
      rw [(queuesKept_step taken rfl).registrations]
      exact listed other before

/-- Whether the announcement of a call is covered: the call holds the lock or never takes it. -/
def Call.Covered (call : Call) : Prop :=
  call.UnderWay ∧ (call.phase = .pathWait ∨ call.lockless = true)

/-- A covered call was covered before, has just taken the lock or is handed off. -/
theorem Move.covered {before after : Call} (moved : Move permitted id before after)
    (covered : after.Covered) :
    before.Covered ∨
      (permitted (.enter id) ∧ before.phase = .admitted ∧ before.group = .mutation) ∨
      permitted (.handOff id) := by
  unfold Call.Covered Call.UnderWay at covered ⊢
  cases moved with
  | passive moved => cases moved <;> simp_all
  | startCommand _ _ _ _ _ _ _ goes => rcases goes with rfl | ⟨_, rfl⟩ <;> simp_all [idleCall]
  | check _ _ _ goes => rcases goes with rfl | ⟨_, rfl, -⟩ <;> simp_all
  | drop _ _ _ lockless joined goes =>
      refine Or.inl ⟨?_, Or.inr lockless⟩
      rcases joined with phase | phase <;> simp [phase]
  | fail reason =>
      refine Or.inl ⟨?_, Or.inr ?_⟩
      · rcases reason with phase | ⟨-, phase | phase | phase | ⟨phase, -⟩⟩ <;> simp [phase]
      · simpa using covered.2
  | enter right admitted mutation => exact Or.inr (Or.inl ⟨right, admitted, mutation⟩)
  | handOff right => exact Or.inr (Or.inr right)
  | abandon _ waiting =>
      refine Or.inl ⟨?_, Or.inr ?_⟩
      · rcases waiting with phase | ⟨_, phase⟩ | phase | phase | phase <;> simp [phase]
      · simpa using covered.2
  | _ => simp_all [idleCall]

/-- A handed-off command run that waits for mutations was handed off before it joined. -/
theorem Move.drains {before after : Call} (moved : Move permitted id before after)
    (drains : before.phase = .drainWait → before.lockless = true)
    (waits : after.phase = .drainWait) : after.lockless = true := by
  cases moved with
  | passive moved => cases moved <;> simp_all
  | startCommand _ _ _ _ _ _ _ goes => rcases goes with rfl | ⟨_, rfl⟩ <;> cases waits
  | check _ _ _ goes => rcases goes with rfl | ⟨_, rfl, -⟩ <;> cases waits
  | drop _ _ _ lockless => exact lockless
  | handOff => rfl
  | release => exact drains waits
  | abort => exact drains waits
  | _ => cases waits

/-- The announcements of covered calls are not pending. -/
def CoveredJoined (state : State) : Prop :=
  ∀ id, (state.calls id).Covered → ∀ announcement,
    state.announcement? (state.calls id).callId (state.calls id).announcer = some announcement →
    announcement.joined = true

variable {announcement : ToolCallAnnouncement} {callId announcer : Option String}

theorem markAnnouncementJoined_joined (state : State)
    (found : (state.markAnnouncementJoined callId announcer).announcement? callId announcer =
      some announcement) : announcement.joined = true := by
  unfold State.markAnnouncementJoined at found
  split at found
  next missing =>
    rw [missing] at found
    cases found
  next earlier present =>
    split at found
    next joined =>
      rw [present] at found
      cases found
      exact joined
    next =>
      cases callId with
      | none => cases found
      | some text =>
          change (state.announcements.set (text, announcer) _).get? (text, announcer) = _ at found
          rw [OrderedMap.get?_set_self] at found
          cases found
          rfl

theorem releaseHold_joined (state : State) (callId : String) (announcer : Option String) :
    state.releaseHold callId announcer = state ∨ ∀ announcement,
      (state.releaseHold callId announcer).announcement? (some callId) announcer =
        some announcement → announcement.joined = true := by
  unfold State.releaseHold
  split
  · exact Or.inl rfl
  next id _ =>
    split
    · exact Or.inl rfl
    · right
      intro announcement found
      dsimp only at found
      split at found
      · exact markAnnouncementJoined_joined state found
      · split at found
        · unfold State.announcement? at found
          rw [(releaseLock_lockOnly _ _).announcements] at found
          exact markAnnouncementJoined_joined state found
        · exact markAnnouncementJoined_joined state found

theorem enterMutation_joined (state : State) (id : Nat)
    (found : (state.enterMutation id).announcement? (state.calls id).callId
      (state.calls id).announcer = some announcement) : announcement.joined = true := by
  unfold State.enterMutation at found
  dsimp only at found
  split at found <;> exact markAnnouncementJoined_joined state found

/-- What was joined before a step is joined after it, unless it is announced anew. -/
theorem joined_step (taken : Step before event after)
    (found : after.announcement? callId announcer = some announcement)
    (same : ∀ text index kind batchId owner, event = .announce text index kind batchId owner →
      ¬(callId = some text ∧ announcer = owner)) :
    ∃ earlier, before.announcement? callId announcer = some earlier ∧
      (earlier.joined = true → announcement.joined = true) := by
  have calm : Calms before after → ∃ earlier,
      before.announcement? callId announcer = some earlier ∧
        (earlier.joined = true → announcement.joined = true) := by
    intro calms
    obtain ⟨earlier, present, -, -, joins⟩ := calms.looked found
    exact ⟨earlier, present, joins⟩
  cases event with
  | announce text index kind batchId owner =>
      cases taken
      cases callId with
      | none => cases found
      | some name =>
          rcases announce_announcements before text index kind batchId owner found with
            ⟨here, -⟩ | ⟨earlier, present, -, -, pending⟩
          · cases here
            exact absurd ⟨rfl, rfl⟩ (same _ _ _ _ _ rfl)
          · refine ⟨earlier, present, fun joined => ?_⟩
            by_contra waits
            rw [(pending (Bool.not_eq_true _ ▸ waits)).1] at joined
            cases joined
  | startCommand id name owner =>
      simp only [Step, next, Option.ite_none_right_eq_some, Option.some.injEq] at taken
      obtain ⟨-, rfl⟩ := taken
      obtain ⟨called, start, calms⟩ := startCommand_declared before id name owner
      obtain ⟨phase, moved, -⟩ := check_spec called id
      rw [start, moved] at found
      obtain ⟨middle, present, -, -, joins⟩ :=
        calms.looked (show called.announcement? callId announcer = _ from found)
      obtain ⟨earlier, present', -, -, same⟩ := declare_looked before name owner present
      exact ⟨earlier, present', fun joined => joins (same ▸ joined)⟩
  | resume id =>
      rcases resume_calms taken with rfl | calms
      · obtain ⟨phase, moved, -⟩ := check_spec before id
        rw [moved] at found
        exact ⟨announcement, found, fun joined => joined⟩
      · exact calm calms
  | _ => exact calm (calms_step taken fun concerns => concerns)

theorem coveredJoined_step (core : Core before) (joins : CoveredJoined before)
    (taken : Step before event after) (fresh : ¬Reannounces before event) :
    CoveredJoined after := by
  intro id covered announcement found
  have moved := (core_step core taken).2 id
  have kept : (before.calls id).Covered → announcement.joined = true := by
    intro was
    obtain ⟨-, callId, announcer, -⟩ := moved.same was.1.1
    rw [callId, announcer] at found
    obtain ⟨earlier, present, still⟩ := joined_step taken found (by
      rintro text index kind batchId owner rfl ⟨name, here⟩
      exact fresh ⟨id, name, here, was.1⟩)
    exact still (joins id was earlier present)
  rcases moved.covered covered with was | ⟨right, admitted, mutation⟩ | right
  · exact kept was
  · obtain ⟨-, callId, announcer, -⟩ := moved.same (by simp [admitted])
    cases event with
    | resume other =>
        obtain rfl : other = id := right
        have entered : before.enterMutation other = after := by
          simpa [Step, next, State.resume, admitted, mutation] using taken
        rw [callId, announcer, ← entered] at found
        exact enterMutation_joined before other found
    | _ => exact False.elim right
  · cases event with
    | handOff text owner =>
        obtain ⟨-, callId, announcer, made⟩ := core.named (text, owner) id right
        cases taken
        rcases releaseHold_joined before text owner with same | joined
        · rw [same] at covered
          exact kept covered
        · obtain ⟨-, callId', announcer', -⟩ := moved.same made
          rw [callId', announcer', callId, announcer] at found
          exact joined announcement found
    | _ => exact False.elim right

/-- What holds in every state of a run that announces no call under way again. -/
structure Standing (state : State) : Prop where
  core : Core state
  registrations : Registrations state
  listed : RegisteringListed state
  places : Places state
  waits : WaitInvariant state
  joins : CoveredJoined state
  drains : ∀ id, (state.calls id).phase = .drainWait → (state.calls id).lockless = true

theorem standing_initialState : Standing initialState where
  core := core_initialState
  registrations := registrations_initialState
  listed _ waits := nomatch waits
  places := places_initialState
  waits := orderInvariant_initialState.toWaitInvariant
  joins _ covered := absurd rfl covered.1.1
  drains _ waits := nomatch waits

theorem standing_step (standing : Standing before) (taken : Step before event after)
    (fresh : ¬Reannounces before event) : Standing after where
  core := (core_step standing.core taken).1
  registrations := registrations_step standing.core standing.registrations taken
  listed := registeringListed_step standing.core standing.listed taken
  places := places_step standing.core standing.registrations standing.places taken
  waits := by
    refine waits_step standing.waits taken ?_
    rintro callId index kind batchId announcer rfl id position waits name owner
    exact absurd ⟨id, name, owner, by simp [waits], by simp [waits]⟩ fresh
  joins := coveredJoined_step standing.core standing.joins taken fresh
  drains id := ((core_step standing.core taken).2 id).drains (standing.drains id)

variable {history : List (State × Event)}

theorem Standing.of_run (run : Execution Step initialState history state)
    (fresh : ∀ entry ∈ history, ¬Reannounces entry.1 entry.2) : Standing state :=
  (run.restrict (fun before event => ¬Reannounces before event) fresh).preserves Standing
    standing_initialState fun standing taken => standing_step standing taken.1 taken.2

/-- A held lock has a holder under way. -/
theorem Core.exists_holder (core : Core state) (held : state.holders ≠ none) :
    ∃ id, (state.calls id).holdsLock = true ∧ (state.calls id).UnderWay := by
  obtain ⟨⟨group, count⟩, present⟩ := Option.ne_none_iff_exists'.mp held
  have positive := core.lock.positive group count present
  obtain ⟨joined, members, card⟩ := core.lock.counted
  rw [State.holderCount, present] at card
  obtain ⟨id, member⟩ : joined.Nonempty := by
    rw [← Finset.card_pos, card]
    exact positive
  have holds := (members id).mp member
  have fits := core.fits id
  refine ⟨id, holds, ?_⟩
  constructor <;> intro phase <;> simp only [Call.Fits, phase, holds] at fits <;> cases fits

/-- A free lock keeps no call waiting. -/
theorem Core.held_of_waits (core : Core state)
    (waits : (state.calls id).phase = .lockQueue ∨ (state.calls id).phase = .drainWait) :
    state.holders ≠ none := by
  intro free
  rcases waits with queued | drain
  · obtain ⟨first, others, split⟩ :=
      List.exists_cons_of_ne_nil (List.ne_nil_of_mem ((core.lock.queued id).mpr queued))
    have blocked := core.lock.blocked first others split
    rw [free] at blocked
    cases blocked
  · obtain ⟨count, held⟩ := core.lock.draining id drain
    rw [free] at held
    cases held

/-- In every reachable state a call that waits for the lock or for running mutations waits for
another one that holds the lock and has not ended. -/
theorem lock_waits_have_holders (run : Execution Step initialState history state)
    (waits : (state.calls id).phase = .lockQueue ∨ (state.calls id).phase = .drainWait) :
    ∃ holder ≠ id, (state.calls holder).holdsLock = true ∧ (state.calls holder).UnderWay := by
  have core := run.preserves Core core_initialState fun core taken => (core_step core taken).1
  obtain ⟨holder, holds, underWay⟩ := core.exists_holder (core.held_of_waits waits)
  refine ⟨holder, ?_, holds, underWay⟩
  rintro rfl
  have fits := core.fits holder
  rcases waits with phase | phase <;> simp [Call.Fits, phase, holds] at fits

/-- A mutation with the lock and a command run that waits for it. -/
def crowdedSteps : List Event := mutationSteps 0 "f" ++ [.startCommand 1 none none, .resume 1]

theorem second_call_waits_for_a_holder : ∃ state holder,
    crowdedSteps.foldlM next initialState = some state ∧
      holder ≠ 1 ∧ (state.calls holder).holdsLock = true := by
  have waits : (crowdedSteps.foldlM next initialState).map (fun state => (state.calls 1).phase) =
      some .lockQueue := by
    decide +kernel
  obtain ⟨state, found, queued⟩ := Option.map_eq_some_iff.mp waits
  obtain ⟨history, run, -⟩ := Execution.of_foldlM found
  obtain ⟨holder, other, holds, -⟩ := lock_waits_have_holders run (.inl queued)
  exact ⟨state, holder, found, other, holds⟩

section Stuck

variable {state : State}

theorem resume_isSome (id : Nat) (ready : (state.calls id).phase = .registered ∨
    (state.calls id).phase = .cleared ∨ (state.calls id).phase = .admitted ∨
    (state.calls id).phase = .pathReady ∨ (state.calls id).phase = .drained) :
    (state.resume id).isSome = true := by
  unfold State.resume
  rcases ready with phase | phase | phase | phase | phase <;> simp only [phase]
  · rfl
  · split <;> rfl
  · split <;> rfl
  · split <;> rfl
  · rfl

theorem skipRegistration_isSome {first : Nat} (head : state.registrations.head? = some first) :
    (next state (.skipRegistration first)).isSome = true := by
  simp only [next, if_pos head]
  split <;> rfl

section

variable (standing : Standing state)
include standing

section

variable (stuck : ¬Progress state)
include stuck

/-- In a state without progress every call under way waits for another one. -/
theorem stuck_phases (id : Nat) (underWay : (state.calls id).UnderWay) :
    (∃ index, (state.calls id).phase = .emissionWait index) ∨ (state.calls id).phase = .lockQueue ∨
      (state.calls id).phase = .pathWait ∨ (state.calls id).phase = .drainWait := by
  have steps : ∀ event, Continues state event → (next state event).isSome = true → False := by
    intro event continues taken
    obtain ⟨after, taken⟩ := Option.isSome_iff_exists.mp taken
    exact stuck (Or.inl ⟨event, after, continues, taken⟩)
  have resumes := fun ready => steps (.resume id) trivial (resume_isSome id ready)
  cases phase : (state.calls id).phase with
  | idle => exact absurd phase underWay.1
  | ended => exact absurd phase underWay.2
  | body => exact absurd (Or.inr (Or.inl ⟨id, phase⟩)) stuck
  | registering =>
      have listed := standing.listed id phase
      obtain ⟨first, others, split⟩ := List.exists_cons_of_ne_nil (List.ne_nil_of_mem listed)
      have head : state.registrations.head? = some first := by rw [split, List.head?_cons]
      exact (steps (.skipRegistration first) trivial (skipRegistration_isSome head)).elim
  | registered => exact (resumes (by simp [phase])).elim
  | emissionWait index => exact Or.inl ⟨index, rfl⟩
  | cleared => exact (resumes (by simp [phase])).elim
  | lockQueue => exact Or.inr (Or.inl rfl)
  | admitted => exact (resumes (by simp [phase])).elim
  | pathWait => exact Or.inr (Or.inr (Or.inl rfl))
  | pathReady => exact (resumes (by simp [phase])).elim
  | drainWait => exact Or.inr (Or.inr (Or.inr rfl))
  | drained => exact (resumes (by simp [phase])).elim
  | failing => exact (steps (.finish id) phase (by simp [next, phase])).elim

/-- In a state without progress no mutation waits for its turn, or one does so behind another that
waits for earlier calls or for the lock. -/
theorem inverted_of_pathWait (waits : (state.calls id).phase = .pathWait) : Inverted state := by
  -- by induction on the queue: the calls in front that wait for their turn have shorter queues
  induction length : (state.calls id).currentQueue.length using Nat.strong_induction_on
    generalizing id with
  | _ bound ih =>
      by_cases free : ∀ earlier ∈ (state.calls id).currentQueue,
          (state.calls earlier).phase = .ended
      · refine absurd (Or.inl ⟨.settlePath id, state.setPhase id .pathReady, trivial, ?_⟩) stuck
        simp only [Step, next, if_pos (And.intro waits free)]
      · push Not at free
        obtain ⟨earlier, member, unfinished⟩ := free
        obtain ⟨shorter, placed⟩ := standing.places.shorter member
        have made : (state.calls earlier).phase ≠ .idle := fun idle =>
          placed (standing.registrations.unplaced earlier (Or.inl idle)).1
        have mutation := standing.places.mutations earlier placed
        rcases stuck_phases standing stuck earlier ⟨made, unfinished⟩ with
          emission | lock | turn | drain
        · exact ⟨id, waits, earlier, member, Or.inr emission⟩
        · exact ⟨id, waits, earlier, member, Or.inl lock⟩
        · exact ih _ (length ▸ shorter) turn rfl
        · have fits := standing.core.fits earlier
          simp only [Call.Fits, drain] at fits
          exact absurd mutation fits.2

/-- In a state without progress a held lock is held by a mutation that waits for its turn. -/
theorem inverted_of_held (held : state.holders ≠ none) : Inverted state := by
  obtain ⟨id, holds, underWay⟩ := standing.core.exists_holder held
  have fits := standing.core.fits id
  rcases stuck_phases standing stuck id underWay with ⟨index, phase⟩ | phase | phase | phase
  · simp only [Call.Fits, phase, holds] at fits
    exact absurd fits.1 (by simp)
  · simp only [Call.Fits, phase, holds] at fits
    exact absurd fits.1 (by simp)
  · exact inverted_of_pathWait standing stuck phase
  · simp only [Call.Fits, phase, holds] at fits
    exact absurd fits.1 (by simp)

theorem inverted_of_lockQueue (waits : (state.calls id).phase = .lockQueue) : Inverted state := by
  exact inverted_of_held standing stuck (standing.core.held_of_waits (.inl waits))

theorem inverted_of_emissionWait {id index : Nat}
    (waits : (state.calls id).phase = .emissionWait index) : Inverted state := by
  -- by induction on the position: the pending call waits at a smaller one
  induction index using Nat.strong_induction_on generalizing id with
  | _ index ih =>
      have pending := standing.waits.waiting id index waits
      rw [hasPendingCallBefore_eq_true] at pending
      obtain ⟨⟨callId, announcer⟩, announcement, present, -, -, waiting, before⟩ := pending
      obtain ⟨other, name, owner, underWay⟩ : ∃ other, (state.calls other).callId = some callId ∧
          (state.calls other).announcer = announcer ∧ (state.calls other).UnderWay := by
        by_contra nobody
        push Not at nobody
        exact stuck (Or.inr (Or.inr ⟨callId, announcer, announcement, present, waiting, nobody⟩))
      have own : state.announcement? (state.calls other).callId (state.calls other).announcer =
          some announcement := by
        rw [name, owner]
        exact present
      have uncovered : ¬(state.calls other).Covered := by
        intro covered
        rw [standing.joins other covered announcement own] at waiting
        cases waiting
      rcases stuck_phases standing stuck other underWay with ⟨position, phase⟩ | phase | phase | phase
      · have same := standing.waits.positioned other position phase announcement own
        exact ih position (same ▸ before) phase
      · exact inverted_of_lockQueue standing stuck phase
      · exact absurd ⟨underWay, Or.inl phase⟩ uncovered
      · exact absurd ⟨underWay, Or.inr (standing.drains other phase)⟩ uncovered

end

end

end Stuck

/-- In every reachable state in which no mutation with the lock waits for its turn behind one that
waits for earlier calls or for the lock, a waiting call means progress. -/
theorem waiting_calls_progress {state : State} {history : List (State × Event)}
    (run : Execution Step initialState history state)
    (fresh : ∀ entry ∈ history, ¬Reannounces entry.1 entry.2) (upright : ¬Inverted state)
    {id : Nat} (waits : (state.calls id).Waits) : Progress state := by
  by_contra stuck
  have standing := Standing.of_run run fresh
  refine upright ?_
  rcases stuck_phases standing stuck id waits.1 with ⟨index, phase⟩ | phase | phase | phase
  · exact inverted_of_emissionWait standing stuck phase
  · exact inverted_of_lockQueue standing stuck phase
  · exact inverted_of_pathWait standing stuck phase
  · obtain ⟨count, held⟩ := standing.core.lock.draining id phase
    exact inverted_of_held standing stuck (by simp [held])

/-- The call that a step calls or aborts. -/
def Event.called : Event → Option Nat
  | .startMutation id _ _ => some id
  | .startCommand id _ _ => some id
  | .abort id => some id
  | _ => none

/-- A call that was never made stays so until it is made. -/
theorem Move.idle {before after : Call} (moved : Move permitted id before after)
    (idle : before = idleCall) (mutation : ¬permitted (.callMutation id))
    (command : ¬permitted (.callCommand id)) (abort : ¬permitted (.abort id)) :
    after = idleCall := by
  subst idle
  cases moved with
  | passive moved => cases moved <;> first | rfl | cases ‹_›
  | startMutation _ _ right => exact absurd right mutation
  | startCommand _ _ _ _ right => exact absurd right command
  | abandon right => exact absurd right abort
  | abort right => exact absurd right abort
  | handOff _ _ _ group => exact absurd rfl group
  | _ => simp_all [idleCall]

/-- The calls that no step of a run called or aborted were never made. -/
theorem untouched (run : Execution Step initialState history state)
    (away : id ∉ (history.map Prod.snd).filterMap Event.called) : state.calls id = idleCall := by
  have kept : Core state ∧ state.calls id = idleCall := by
    refine (run.restrict (fun _ event => event.called ≠ some id) fun entry member called => away
      (List.mem_filterMap.mpr ⟨entry.2, List.mem_map_of_mem member, called⟩)).preserves
      (fun state => Core state ∧ state.calls id = idleCall) ⟨core_initialState, rfl⟩ ?_
    rintro before event after ⟨core, idle⟩ ⟨taken, elsewhere⟩
    obtain ⟨core', moves⟩ := core_step core taken
    refine ⟨core', (moves id).idle idle ?_ ?_ ?_⟩ <;> intro right <;> cases event <;>
      first | exact right | exact elsewhere (congrArg some right)
  exact kept.2

/-- Two mutations of one file: the first may go on while the second waits for its turn. -/
theorem second_mutation_lets_first_go_on : ∃ history state,
    Execution Step initialState history state ∧
      history.map Prod.snd = mutationSteps 0 "f" ++ mutationSteps 1 "f" ∧
      (state.calls 1).Waits ∧ Progress state := by
  have waits : ((mutationSteps 0 "f" ++ mutationSteps 1 "f").foldlM next initialState).map
      (fun state => [0, 1].all fun id => (state.calls id).phase = .pathWait ∧
        ∀ earlier ∈ (state.calls id).currentQueue, (state.calls earlier).phase = .pathWait) =
      some true := by
    decide +kernel
  obtain ⟨state, found, same⟩ := Option.map_eq_some_iff.mp waits
  simp only [List.all_eq_true, decide_eq_true_eq] at same
  obtain ⟨history, run, labels⟩ := Execution.of_foldlM found
  have second := (same 1 (by simp)).1
  have waiting : (state.calls 1).Waits := by simp [Call.Waits, Call.UnderWay, second]
  refine ⟨history, state, run, labels, waiting, waiting_calls_progress run ?_ ?_ waiting⟩
  · have quiet : ∀ event ∈ history.map Prod.snd, ∀ before, ¬Reannounces before event := by
      rw [labels]
      intro event member before
      simp only [mutationSteps, List.cons_append, List.nil_append, List.mem_cons,
        List.not_mem_nil, or_false] at member
      rcases member with rfl | rfl | rfl | rfl | rfl | rfl | rfl | rfl | rfl | rfl <;>
        exact fun impossible => impossible
    exact fun entry member => quiet entry.2 (List.mem_map_of_mem member) entry.1
  · rintro ⟨id, turn, earlier, member, before⟩
    have known : id ∈ [0, 1] := by
      by_contra other
      rw [untouched run (by rw [labels]; exact other)] at turn
      cases turn
    rw [(same id known).2 earlier member] at before
    simp at before

/-- A session `b` emitted a write of `g`, a command run and a write of `f`, another session `a` a
write of `f`.  The write of `f` by `b` takes its place in the queue of `f` and waits for the command
run, that of `a` takes the lock and waits for its turn, and the command run, after the write of `g`,
waits for the lock. -/
def crossedSteps : List Event := [
  .announce "write g" 0 .mutation none (some "b"),
  .announce "run" 1 .other none (some "b"),
  .announce "write f" 2 .mutation none (some "b"),
  .announce "write f" 0 .mutation none (some "a"),
  .startMutation 2 (some "write f") (some "b"),
  .register 2 "f",
  .startCommand 1 (some "run") (some "b"),
  .resume 2,
  .startMutation 3 (some "write f") (some "a"),
  .register 3 "f",
  .resume 3,
  .resume 3,
  .resume 3,
  .startMutation 0 (some "write g") (some "b"),
  .register 0 "g",
  .resume 0,
  .resume 0,
  .resume 0,
  .settlePath 0,
  .resume 0,
  .finish 0,
  .resume 1]

/-- The three calls wait for each other, and nothing can go on. -/
theorem crossed_queues_deadlock : ∃ history state,
    Execution Step initialState history state ∧ history.map Prod.snd = crossedSteps ∧
      (state.calls 1).phase = .lockQueue ∧ (state.calls 2).phase = .emissionWait 2 ∧
      (state.calls 3).phase = .pathWait ∧ ¬Progress state := by
  have reached : (crossedSteps.foldlM next initialState).map (fun state =>
      decide (((state.calls 0).phase = .ended ∧ (state.calls 1).phase = .lockQueue) ∧
        ((state.calls 2).phase = .emissionWait 2 ∧ (state.calls 3).phase = .pathWait) ∧
        ((state.calls 3).currentQueue = [2] ∧ state.registrations = []) ∧
        ∀ entry ∈ state.announcements.entries, entry.2.joined = true ∨
          ∃ id ∈ [1, 2], (state.calls id).callId = some entry.1.1 ∧
            (state.calls id).announcer = entry.1.2)) = some true := by
    decide +kernel
  obtain ⟨state, found, same⟩ := Option.map_eq_some_iff.mp reached
  obtain ⟨⟨ended, lock⟩, ⟨emission, turn⟩, ⟨queue, unregistered⟩, answered⟩ :=
    of_decide_eq_true same
  obtain ⟨history, run, labels⟩ := Execution.of_foldlM found
  refine ⟨history, state, run, labels, lock, emission, turn, ?_⟩
  have phases : ∀ id, (state.calls id).phase = .idle ∨ (state.calls id).phase = .ended ∨
      (state.calls id).phase = .lockQueue ∨ (state.calls id).phase = .emissionWait 2 ∨
      (state.calls id).phase = .pathWait ∧ id = 3 := by
    intro id
    by_cases known : id ∈ [2, 1, 3, 0]
    · simp only [List.mem_cons, List.not_mem_nil, or_false] at known
      rcases known with rfl | rfl | rfl | rfl <;> simp [ended, lock, emission, turn]
    · rw [untouched run (by rw [labels]; exact known)]
      exact Or.inl rfl
  rintro (⟨event, after, continues, taken⟩ | ⟨id, body⟩ | ⟨callId, announcer, announcement, present,
    waiting, nobody⟩)
  · cases event with
    | register id key => simp [Step, next, unregistered] at taken
    | skipRegistration id => simp [Step, next, unregistered] at taken
    | loseRegistration id =>
        rcases phases id with phase | phase | phase | phase | ⟨phase, -⟩ <;>
          simp [Step, next, phase] at taken
    | resume id =>
        rcases phases id with phase | phase | phase | phase | ⟨phase, -⟩ <;>
          simp [Step, next, State.resume, phase] at taken
    | settlePath id =>
        rcases phases id with phase | phase | phase | phase | ⟨phase, rfl⟩ <;>
          simp [Step, next, phase, queue, emission] at taken
    | finish id =>
        have failing : (state.calls id).phase = .failing := continues
        rcases phases id with phase | phase | phase | phase | ⟨phase, -⟩ <;>
          simp [phase] at failing
    | _ => exact continues
  · rcases phases id with phase | phase | phase | phase | ⟨phase, -⟩ <;> simp [phase] at body
  · rcases answered _ (OrderedMap.get?_eq_some.mp present) with joined | ⟨id, member, name, owner⟩
    · rw [joined] at waiting
      cases waiting
    · refine nobody id name owner ?_
      simp only [List.mem_cons, List.not_mem_nil, or_false] at member
      rcases member with rfl | rfl <;> simp [Call.UnderWay, lock, emission]

end PiAdaptative.MutationLock
