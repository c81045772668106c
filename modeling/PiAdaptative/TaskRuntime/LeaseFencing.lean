import PiAdaptative.TaskRuntime.TaskSteps
import PiAdaptative.TaskRuntime.Calls

/-!
# Lease fencing

The leases of an attempt are numbered one after another.  A fenced write is admitted only under
the latest of them, results and checkpoints never carry a later token, and a terminal attempt keeps
its status, result and lease.
-/

namespace PiAdaptative.TaskRuntime

variable {env : Environment} {event : OrchestrationEvent}
variable {state after : TaskRuntimeProjection} {attemptId : String}

/-- The lease an event gives to an attempt. -/
def givenLease (env : Decoders) (attemptId : String) (event : OrchestrationEvent) :
    Option AttemptLease :=
  if event.type = .attemptLeased ∨ event.type = .attemptResumed then
    match leaseFromPayload env event.payload with
    | .ok lease => if lease.attemptId = attemptId then some lease else none
    | .error _ => none
  else none

/-- The leases a history gives to an attempt, in order. -/
def givenLeases (env : Decoders) (attemptId : String)
    (history : List (TaskRuntimeProjection × OrchestrationEvent)) : List AttemptLease :=
  history.filterMap fun entry => givenLease env attemptId entry.2

/-- Identity and fencing token of a lease. -/
def AttemptLease.pair (lease : AttemptLease) : String × Nat := (lease.leaseId, lease.fencingToken)

/-- Identity and fencing token of the lease an attempt holds. -/
def heldPair (attempt : Option AttemptRuntimeState) : Option (String × Nat) :=
  (attempt.bind AttemptRuntimeState.lease).map AttemptLease.pair

variable {lease : AttemptLease}

theorem givenLease_of_decoded (kind : event.type = .attemptLeased ∨ event.type = .attemptResumed)
    (decoded : leaseFromPayload env.toDecoders event.payload = .ok lease) :
    givenLease env.toDecoders attemptId event =
      if lease.attemptId = attemptId then some lease else none := by
  simp [givenLease, kind, decoded]

variable {attempt next : AttemptRuntimeState}

/-- Only a given lease changes the pair an attempt holds. -/
theorem AttemptStep.keeps_pair
    (step : AttemptStep env.toDecoders event state attemptId attempt next) :
    heldPair (some next) = heldPair (some attempt) ∨
      ∃ lease, givenLease env.toDecoders attemptId event = some lease ∧
        next.lease = some lease ∧
        lease.fencingToken = (attempt.lease.map AttemptLease.fencingToken).getD 0 + 1 := by
  cases step with
  | changed aggregate change =>
      rcases change.frame.lease with same | ⟨-, lease, expiresAt, held, renewed⟩
      · exact Or.inl (by simp [heldPair, same])
      · exact Or.inl (by simp [heldPair, held, renewed, AttemptLease.pair])
  | leased kind decoded target queued fence =>
      refine Or.inr ⟨_, ?_, rfl, fence⟩
      rw [givenLease_of_decoded (Or.inl kind) decoded, if_pos target]
  | resumed kind decoded target suspended fence =>
      refine Or.inr ⟨_, ?_, rfl, fence⟩
      rw [givenLease_of_decoded (Or.inr kind) decoded, if_pos target]
  | verified | pinned | granted | checkpointed | suspended | ended | finished => exact Or.inl rfl


theorem applyOrchestrationEvent_lease
    (kind : event.type = .attemptLeased ∨ event.type = .attemptResumed)
    (applied : applyOrchestrationEvent env state event = .ok after) :
    ∃ lease attempt next, leaseFromPayload env.toDecoders event.payload = .ok lease ∧
      state.attempts.get? lease.attemptId = some attempt ∧
      terminalAttemptStatus attempt.status = false ∧
      lease.fencingToken = (attempt.lease.map AttemptLease.fencingToken).getD 0 + 1 ∧
      after.attempts = state.attempts.set lease.attemptId next ∧ next.lease = some lease ∧
      next.result = attempt.result := by
  rcases kind with kind | kind
  · simp only [applyOrchestrationEvent, kind, applyAttemptLeased, bind_eq_ok, pure_eq_ok,
      Prod.exists] at applied
    obtain ⟨lease, decoded, attempt, agent, guarded, task, -, rfl⟩ := applied
    have admitted := assertAttemptLeaseTransition_spec guarded
    refine ⟨lease, attempt, _, decoded, admitted.present, ?_, admitted.fence, rfl, rfl, rfl⟩
    rw [admitted.queued]
    rfl
  · simp only [applyOrchestrationEvent, kind, applyAttemptResumed, bind_eq_ok, exists_unit,
      pure_eq_ok, orThrow_eq_ok, throwIf_eq_ok, Option.filter_eq_some_iff,
      decide_eq_true_eq] at applied
    obtain ⟨lease, decoded, agentId, -, -, attempt, ⟨present, suspended, -⟩, agent, -, fence, -,
      -, -, -, -, rfl⟩ := applied
    refine ⟨lease, attempt, _, decoded, present, ?_, not_not.mp fence, rfl, rfl, rfl⟩
    rw [suspended]
    rfl

/-- A terminal attempt keeps its status, result and lease. -/
theorem AttemptStep.terminal_frozen
    (step : AttemptStep env.toDecoders event state attemptId attempt next)
    (terminal : terminalAttemptStatus attempt.status = true) :
    next.status = attempt.status ∧ next.result = attempt.result ∧ next.lease = attempt.lease := by
  have unfinished_not_terminal :
      ¬(attempt.status = .leased ∨ attempt.status = .running) := by
    rintro (same | same) <;> rw [same] at terminal <;> cases terminal
  cases step with
  | verified | pinned | granted | checkpointed => exact ⟨rfl, rfl, rfl⟩
  | changed aggregate change =>
      obtain same | ⟨leased, -⟩ := change.frame.status
      · obtain held | ⟨unfinished, -⟩ := change.frame.lease
        · exact ⟨same, change.frame.result, held⟩
        · exact absurd unfinished unfinished_not_terminal
      · exact absurd (Or.inl leased) unfinished_not_terminal
  | leased kind decoded target queued fence => rw [queued] at terminal; cases terminal
  | resumed kind decoded target suspended fence => rw [suspended] at terminal; cases terminal
  | suspended unfinished => exact absurd unfinished unfinished_not_terminal
  | ended live ends => rw [live] at terminal; cases terminal
  | finished kind decoded target unfinished held current =>
      exact absurd unfinished unfinished_not_terminal

/-- What stays of an attempt once it is terminal. -/
def SameOutcome (attempt next : AttemptRuntimeState) : Prop :=
  next.status = attempt.status ∧ next.result = attempt.result ∧ next.lease = attempt.lease

variable {source target : Option AttemptRuntimeState}

theorem AttemptEffect.terminal_frozen {first attempt : AttemptRuntimeState}
    (effect : AttemptEffect env.toDecoders event state attemptId source target)
    (present : source = some attempt) (same : SameOutcome first attempt)
    (terminal : terminalAttemptStatus first.status = true) :
    ∃ next, target = some next ∧ SameOutcome first next := by
  cases effect with
  | unchanged => exact ⟨attempt, present, same⟩
  | queued => cases present
  | stepped step =>
      obtain rfl := Option.some.inj present
      have frozen := step.terminal_frozen (by rw [same.1]; exact terminal)
      exact ⟨_, rfl, frozen.1.trans same.1, frozen.2.1.trans same.2.1,
        frozen.2.2.trans same.2.2⟩

variable {before : TaskRuntimeProjection}

/-- An applied event keeps the outcome of a terminal attempt. -/
theorem Applied.terminal_frozen {first attempt : AttemptRuntimeState} (keyed : WellKeyed before)
    (applied : Applied env before event after)
    (present : before.attempts.get? attemptId = some attempt) (same : SameOutcome first attempt)
    (terminal : terminalAttemptStatus first.status = true) :
    ∃ next, after.attempts.get? attemptId = some next ∧ SameOutcome first next := by
  refine holds_of_path (fun attempt => ∃ next, attempt = some next ∧ SameOutcome first next)
    (applied.attempt_effects keyed attemptId) ?_ ⟨attempt, present, same⟩
  rintro _ _ ⟨_, effect⟩ ⟨next, found, kept⟩
  exact effect.terminal_frozen found kept terminal

variable {history : List (TaskRuntimeProjection × OrchestrationEvent)}

variable {attempt : AttemptRuntimeState}

theorem terminal_frozen_after_execution (keyed : WellKeyed before)
    (run : Execution (Applied env) before history after)
    (present : before.attempts.get? attemptId = some attempt)
    (terminal : terminalAttemptStatus attempt.status = true) :
    ∃ next, after.attempts.get? attemptId = some next ∧ SameOutcome attempt next := by
  have both := run.preserves
    (fun state => WellKeyed state ∧
      ∃ next, state.attempts.get? attemptId = some next ∧ SameOutcome attempt next)
    ⟨keyed, attempt, present, rfl, rfl, rfl⟩ fun held applied => by
      obtain ⟨keyed, next, found, same⟩ := held
      exact ⟨applied.wellKeyed keyed, applied.terminal_frozen keyed found same terminal⟩
  exact both.2

theorem AttemptEffect.keeps_pair
    (effect : AttemptEffect env.toDecoders event state attemptId source target)
    (ungiven : givenLease env.toDecoders attemptId event = none) :
    heldPair target = heldPair source := by
  cases effect with
  | unchanged => rfl
  | queued => rfl
  | stepped step =>
      obtain same | ⟨lease, given, -⟩ := step.keeps_pair
      · exact same
      · rw [ungiven] at given
        cases given

/-- The fencing invariant of one attempt along a history. -/
structure Fenced (env : Decoders) (attemptId : String)
    (history : List (TaskRuntimeProjection × OrchestrationEvent))
    (state : TaskRuntimeProjection) : Prop where
  numbered : (givenLeases env attemptId history).map AttemptLease.fencingToken =
    List.range' 1 (givenLeases env attemptId history).length
  held : heldPair (state.attempts.get? attemptId) =
    (givenLeases env attemptId history).getLast?.map AttemptLease.pair
  result : ∀ {attempt result}, state.attempts.get? attemptId = some attempt →
    attempt.result = some result → terminalAttemptStatus attempt.status = true ∧
      heldPair (some attempt) = some (result.leaseId, result.fencingToken)

theorem fenced_emptyProjection (env : Decoders) (attemptId : String) :
    Fenced env attemptId [] emptyProjection where
  numbered := rfl
  held := rfl
  result found := by simp [emptyProjection] at found

theorem hasToken_pair {leaseId : String} {fencingToken : Nat}
    (current : lease.hasToken leaseId fencingToken = true) :
    lease.pair = (leaseId, fencingToken) := by
  obtain ⟨sameLease, sameToken⟩ := of_decide_eq_true current
  exact Prod.ext sameLease (by exact_mod_cast sameToken)

/-- A result ends its attempt under the lease it still holds. -/
def ResultFenced (attempt : Option AttemptRuntimeState) : Prop :=
  ∀ {present result}, attempt = some present → present.result = some result →
    terminalAttemptStatus present.status = true ∧
      heldPair (some present) = some (result.leaseId, result.fencingToken)

theorem AttemptStep.resultFenced
    (step : AttemptStep env.toDecoders event state attemptId attempt next)
    (fenced : ResultFenced (some attempt)) : ResultFenced (some next) := by
  rintro _ result ⟨⟩ reported
  by_cases settled : ∃ earlier, attempt.result = some earlier
  · obtain ⟨earlier, stated⟩ := settled
    obtain ⟨terminal, held⟩ := fenced rfl stated
    obtain ⟨sameStatus, sameResult, sameLease⟩ := step.terminal_frozen terminal
    rw [sameResult, stated] at reported
    obtain rfl := Option.some.inj reported
    exact ⟨by rw [sameStatus]; exact terminal, by simpa [heldPair, sameLease] using held⟩
  · cases step with
    | finished kind decoded target unfinished held current =>
        obtain rfl := Option.some.inj reported
        refine ⟨attemptStatus_terminal _, ?_⟩
        simp [heldPair, AttemptRuntimeState.terminate, held, hasToken_pair current]
    | changed aggregate change =>
        rw [change.frame.result] at reported
        exact absurd ⟨_, reported⟩ settled
    | verified | pinned | granted | leased | checkpointed | suspended | resumed | ended =>
        exact absurd ⟨_, reported⟩ settled

theorem AttemptEffect.resultFenced
    (effect : AttemptEffect env.toDecoders event state attemptId source target)
    (fenced : ResultFenced source) : ResultFenced target := by
  cases effect with
  | unchanged => exact fenced
  | queued =>
      rintro _ _ ⟨⟩ reported
      cases reported
  | stepped step => exact step.resultFenced fenced

theorem givenLeases_append :
    givenLeases env.toDecoders attemptId (history ++ [(before, event)]) =
      givenLeases env.toDecoders attemptId history ++
        (givenLease env.toDecoders attemptId event).toList := by
  cases given : givenLease env.toDecoders attemptId event <;>
    simp [givenLeases, List.filterMap_append, given]

/-- The token an attempt holds counts the leases it was given. -/
theorem Fenced.token (fenced : Fenced env.toDecoders attemptId history state)
    (present : state.attempts.get? attemptId = some attempt) :
    (attempt.lease.map AttemptLease.fencingToken).getD 0 =
      (givenLeases env.toDecoders attemptId history).length := by
  have last : attempt.lease.map AttemptLease.fencingToken =
      (List.range' 1 (givenLeases env.toDecoders attemptId history).length).getLast? := by
    rw [← fenced.numbered, List.getLast?_map]
    have held := congrArg (Option.map Prod.snd) fenced.held
    simpa [heldPair, present, Option.map_map, AttemptLease.pair, Function.comp_def] using held
  rw [last, List.getLast?_range']
  split
  next none => simp [none]
  next some => simp

/-- Every applied event keeps an attempt fenced. -/
theorem Applied.fenced (keyed : WellKeyed before)
    (fenced : Fenced env.toDecoders attemptId history before)
    (applied : Applied env before event after) :
    Fenced env.toDecoders attemptId (history ++ [(before, event)]) after := by
  have effects := applied.attempt_effects keyed attemptId
  have resultFenced : ResultFenced (after.attempts.get? attemptId) :=
    holds_of_path ResultFenced effects (fun ⟨_, effect⟩ => effect.resultFenced) fenced.result
  cases given : givenLease env.toDecoders attemptId event with
  | none =>
      have same : heldPair (after.attempts.get? attemptId) =
          heldPair (before.attempts.get? attemptId) :=
        holds_of_path
          (fun attempt => heldPair attempt = heldPair (before.attempts.get? attemptId)) effects
          (fun ⟨_, effect⟩ same => (effect.keeps_pair given).trans same) rfl
      refine ⟨?_, ?_, resultFenced⟩
      · simpa [givenLeases_append, given] using fenced.numbered
      · simpa [givenLeases_append, given, same] using fenced.held
  | some lease =>
      have kind : event.type = .attemptLeased ∨ event.type = .attemptResumed := by
        by_contra other
        simp [givenLease, other] at given
      obtain ⟨-, state, taken, rfl⟩ := applied
      obtain ⟨installed, attempt, next, decoded, present, -, fence, attempts, holds, -⟩ :=
        applyOrchestrationEvent_lease kind taken
      rw [givenLease_of_decoded kind decoded] at given
      split at given
      next target =>
        subst target
        have counted : installed.fencingToken =
            (givenLeases env.toDecoders installed.attemptId history).length + 1 := by
          rw [fence, fenced.token present]
        have given : givenLease env.toDecoders installed.attemptId event = some installed := by
          rw [givenLease_of_decoded kind decoded, if_pos rfl]
        refine ⟨?_, ?_, resultFenced⟩
        · simp only [givenLeases_append, given, Option.toList_some, List.map_append,
            fenced.numbered, List.map_cons, List.map_nil, counted, List.length_append,
            List.length_singleton]
          rw [List.range'_1_concat, Nat.add_comm 1]
        · simp [givenLeases_append, given, attempts, heldPair, holds]
      · cases given

/-- Every accepted history keeps every attempt fenced. -/
theorem AcceptedLog.fenced (run : AcceptedLog env history after) (attemptId : String) :
    Fenced env.toDecoders attemptId history after :=
  run.invariant (Fenced env.toDecoders attemptId) (fenced_emptyProjection _ _)
    fun earlier fenced applied => applied.fenced (AcceptedLog.wellKeyed earlier) fenced

/-- A checkpoint carries a token no later than the lease its attempt holds. -/
def CheckpointsFenced (state : TaskRuntimeProjection) : Prop :=
  ∀ {checkpointId checkpoint}, state.checkpoints.get? checkpointId = some checkpoint →
    ∃ attempt lease, state.attempts.get? checkpoint.attemptId = some attempt ∧
      attempt.lease = some lease ∧ checkpoint.fencingToken ≤ lease.fencingToken

theorem AttemptStep.lease_grows
    (step : AttemptStep env.toDecoders event state attemptId attempt next)
    (held : attempt.lease = some lease) :
    ∃ later, next.lease = some later ∧ lease.fencingToken ≤ later.fencingToken := by
  rcases step.keeps_pair with same | ⟨given, -, holds, fence⟩
  · simp only [heldPair, Option.bind_some, held] at same
    obtain ⟨later, holds, pair⟩ := Option.map_eq_some_iff.mp same
    exact ⟨later, holds, Nat.le_of_eq (congrArg Prod.snd pair).symm⟩
  · refine ⟨given, holds, ?_⟩
    rw [held] at fence
    simp only [Option.map_some, Option.getD_some] at fence
    omega

theorem Transition.lease_grows (keyed : WellKeyed state)
    (taken : Transition env event state after)
    (present : state.attempts.get? attemptId = some attempt) (held : attempt.lease = some lease) :
    ∃ next later, after.attempts.get? attemptId = some next ∧ next.lease = some later ∧
      lease.fencingToken ≤ later.fencingToken := by
  have effect := taken.attempt_effect keyed attemptId
  rw [present] at effect
  generalize target : after.attempts.get? attemptId = later at effect
  cases effect with
  | unchanged => exact ⟨attempt, lease, rfl, held, Nat.le_refl _⟩
  | stepped step =>
      obtain ⟨later, holds, grown⟩ := step.lease_grows held
      exact ⟨_, later, rfl, holds, grown⟩

/-- A transition records at most the checkpoint of a running lease. -/
theorem Transition.checkpoints (taken : Transition env event state after) :
    after.checkpoints = state.checkpoints ∨
      ∃ checkpoint attempt lease, state.attempts.get? checkpoint.attemptId = some attempt ∧
        attempt.lease = some lease ∧ checkpoint.fencingToken = lease.fencingToken ∧
        after.checkpoints = state.checkpoints.set checkpoint.checkpointId checkpoint := by
  cases taken with
  | @attemptCheckpointed checkpoint _ attempt _ kind guarded checkpointed =>
      obtain ⟨present, -, lease, held, current⟩ := assertRunningAttemptLease_spec guarded
      have token := congrArg Prod.snd (hasToken_pair current)
      exact Or.inr ⟨checkpoint, attempt, lease, present, held, token.symm, rfl⟩
  | objectiveResumed kind present refreshed | taskCreated kind owner valid fresh refreshed
  | taskVerified kind unbound present recorded refreshed
  | attemptVerified kind decoded present guarded refreshed
  | attemptFinished kind decoded guarded released refreshed =>
      obtain ⟨tasks, rfl, -⟩ := refreshReadyTasks_spec refreshed
      exact Or.inl rfl
  | approvalRejected =>
      unfold blockRejectedAttempt
      split <;> exact Or.inl rfl
  | _ => exact Or.inl rfl

theorem Transition.checkpointsFenced (keyed : WellKeyed state)
    (taken : Transition env event state after) (fenced : CheckpointsFenced state) :
    CheckpointsFenced after := by
  intro checkpointId checkpoint found
  have grown : ∀ attempt lease, state.attempts.get? checkpoint.attemptId = some attempt →
      attempt.lease = some lease → checkpoint.fencingToken ≤ lease.fencingToken →
      ∃ attempt lease, after.attempts.get? checkpoint.attemptId = some attempt ∧
        attempt.lease = some lease ∧ checkpoint.fencingToken ≤ lease.fencingToken := by
    intro attempt lease present held bounded
    obtain ⟨next, later, kept, holds, grows⟩ := taken.lease_grows keyed present held
    exact ⟨next, later, kept, holds, Nat.le_trans bounded grows⟩
  have earlier : state.checkpoints.get? checkpointId = some checkpoint →
      ∃ attempt lease, after.attempts.get? checkpoint.attemptId = some attempt ∧
        attempt.lease = some lease ∧ checkpoint.fencingToken ≤ lease.fencingToken := by
    intro recorded
    obtain ⟨attempt, lease, present, held, bounded⟩ := fenced recorded
    exact grown attempt lease present held bounded
  rcases taken.checkpoints with same | ⟨recorded, attempt, lease, present, held, token, made⟩
  · exact earlier (same ▸ found)
  · rw [made, Record.get?_set] at found
    split at found
    · obtain rfl := Option.some.inj found
      exact grown attempt lease present held (Nat.le_of_eq token)
    · exact earlier found

theorem AcceptedLog.checkpointsFenced (run : AcceptedLog env history after) :
    CheckpointsFenced after := by
  have both := holds_after_execution
    (fun state => WellKeyed state ∧ CheckpointsFenced state)
    (fun held => ⟨⟨held.1.attempts, held.1.tasks⟩, held.2⟩)
    (fun held taken => ⟨taken.wellKeyed held.1, taken.checkpointsFenced held.1 held.2⟩)
    run ⟨wellKeyed_emptyProjection, fun found => by simp [emptyProjection] at found⟩
  exact @both.2

/-- The attempt a write is about and the lease it was made under. -/
structure FencedWrite where
  attemptId : String
  leaseId : String
  fencingToken : Rat

/-- The write of an event type that must carry its attempt's lease. -/
def fencedWrite (env : Decoders) (event : OrchestrationEvent) : Outcome FencedWrite :=
  match event.type with
  | .attemptStarted | .attemptLeaseRenewed | .attemptSuspended | .attemptLeaseExpired
  | .attemptModelMoved => do
      let attemptId ← string (event.field "attemptId") "attemptId"
      let leaseId ← string (event.field "leaseId") "leaseId"
      let fencingToken ← number (event.field "fencingToken") "fencingToken"
      return { attemptId, leaseId, fencingToken }
  | .attemptCheckpointed => do
      let checkpoint ← checkpointFromPayload env event.payload
      let leaseId ← string (event.field "leaseId") "leaseId"
      return { attemptId := checkpoint.attemptId, leaseId, fencingToken := checkpoint.fencingToken }
  | .attemptUsageRegistered => do
      let attemptId ← dispatchIdentifier (event.field "attemptId") "attemptId"
      let identity ← usageIdentity event "attempt.usage_registered"
      return { attemptId, leaseId := identity.leaseId, fencingToken := identity.fencingToken }
  | .attemptFinished => do
      let result ← resultFromPayload env event.payload
      return { attemptId := result.attemptId, leaseId := result.leaseId
               fencingToken := result.fencingToken }
  | _ => .error (.plain "The event carries no lease.")

/-- The write carries the latest lease of its attempt. -/
def CurrentWrite (state : TaskRuntimeProjection) (write : FencedWrite) : Prop :=
  ∃ attempt lease, state.attempts.get? write.attemptId = some attempt ∧
    attempt.lease = some lease ∧ lease.hasToken write.leaseId write.fencingToken = true

variable {value : Option Json}

theorem string_eq_ok {label text : String} :
    string value label = .ok text ↔ value = some (.str text) ∧ text ≠ "" := by
  unfold string
  split
  · simp only [bind_eq_ok, exists_unit, throwIf_eq_ok, pure_eq_ok, Option.some.injEq,
      Json.str.injEq]
    constructor
    · rintro ⟨present, rfl⟩
      exact ⟨rfl, present⟩
    · rintro ⟨rfl, present⟩
      exact ⟨present, rfl⟩
  next other =>
    simp only [reduceCtorEq, false_iff, not_and]
    rintro rfl
    exact absurd rfl (other text)

theorem number_eq_ok {label : String} {quantity : Rat} :
    number value label = .ok quantity ↔ value = some (.num quantity) := by
  unfold number
  split
  · simp
  next other =>
    simp only [reduceCtorEq, false_iff]
    rintro rfl
    exact other quantity rfl

theorem dispatchIdentifier_eq_ok {label text : String} :
    dispatchIdentifier value label = .ok text ↔
      value = some (.str text) ∧ text ≠ "" ∧
        utf16Length text ≤ MAX_ORCHESTRATION_IDENTIFIER_LENGTH := by
  simp only [dispatchIdentifier, boundedIdentifier, bind_eq_ok, exists_unit, throwIf_eq_ok,
    pure_eq_ok, string_eq_ok, Nat.not_lt]
  constructor
  · rintro ⟨read, ⟨present, filled⟩, bounded, rfl⟩
    exact ⟨present, filled, bounded⟩
  · rintro ⟨present, filled, bounded⟩
    exact ⟨text, ⟨present, filled⟩, bounded, rfl⟩

/-- The write that the three fields of a payload state. -/
structure StatesWrite (event : OrchestrationEvent) (write : FencedWrite) : Prop where
  attemptId : event.field "attemptId" = some (.str write.attemptId)
  leaseId : event.field "leaseId" = some (.str write.leaseId)
  fencingToken : event.field "fencingToken" = some (.num write.fencingToken)

theorem StatesWrite.unique {first second : FencedWrite} (left : StatesWrite event first)
    (right : StatesWrite event second) : first = second := by
  obtain ⟨attemptId, leaseId, fencingToken⟩ := first
  have sameAttempt := left.attemptId.symm.trans right.attemptId
  have sameLease := left.leaseId.symm.trans right.leaseId
  have sameToken := left.fencingToken.symm.trans right.fencingToken
  simp only [Option.some.injEq, Json.str.injEq, Json.num.injEq] at sameAttempt sameLease sameToken
  rw [sameAttempt, sameLease, sameToken]

/-- An event whose payload states its write in three fields carries the latest lease. -/
theorem applyOrchestrationEvent_states
    (kind : event.type = .attemptStarted ∨ event.type = .attemptLeaseRenewed ∨
      event.type = .attemptSuspended ∨ event.type = .attemptLeaseExpired ∨
      event.type = .attemptModelMoved)
    (applied : applyOrchestrationEvent env state event = .ok after) :
    ∃ write, StatesWrite event write ∧ CurrentWrite state write := by
  rcases kind with kind | kind | kind | kind | kind
  · simp only [applyOrchestrationEvent, kind, applyAttemptStarted, bind_eq_ok, string_eq_ok,
      number_eq_ok] at applied
    obtain ⟨attemptId, ⟨named, -⟩, leaseId, ⟨leased, -⟩, token, tokened, attempt, guarded, -⟩ :=
      applied
    obtain ⟨-, present, -, lease, held, current⟩ := assertAttemptStartTransition_spec guarded
    exact ⟨⟨attemptId, leaseId, token⟩, ⟨named, leased, tokened⟩, attempt, lease, present, held,
      current⟩
  · simp only [applyOrchestrationEvent, kind, applyAttemptLeaseRenewed, bind_eq_ok, string_eq_ok,
      number_eq_ok, Prod.exists] at applied
    obtain ⟨attemptId, ⟨named, -⟩, leaseId, ⟨leased, -⟩, token, tokened, expiresAt, -, attempt,
      lease, guarded, -⟩ := applied
    obtain ⟨-, present, -, held, current⟩ := assertAttemptLeaseRenewalTransition_spec guarded
    exact ⟨⟨attemptId, leaseId, token⟩, ⟨named, leased, tokened⟩, attempt, lease, present, held,
      current⟩
  · simp only [applyOrchestrationEvent, kind, applyAttemptSuspended, bind_eq_ok, exists_unit,
      string_eq_ok, number_eq_ok, requireAttempt_eq_ok, currentLease_eq_ok] at applied
    obtain ⟨attemptId, ⟨named, -⟩, -, attempt, present, leaseId, ⟨leased, -⟩, token, tokened,
      lease, ⟨held, current⟩, -⟩ := applied
    exact ⟨⟨attemptId, leaseId, token⟩, ⟨named, leased, tokened⟩, attempt, lease, present, held,
      current⟩
  · simp only [applyOrchestrationEvent, kind, applyAttemptLeaseExpired, bind_eq_ok, exists_unit,
      string_eq_ok, number_eq_ok, requireAttempt_eq_ok, currentLease_eq_ok] at applied
    obtain ⟨attemptId, ⟨named, -⟩, -, attempt, present, -, leaseId, ⟨leased, -⟩, token, tokened,
      lease, ⟨held, current⟩, -⟩ := applied
    exact ⟨⟨attemptId, leaseId, token⟩, ⟨named, leased, tokened⟩, attempt, lease, present, held,
      current⟩
  · simp only [applyOrchestrationEvent, kind, applyAttemptModelMoved, bind_eq_ok, exists_unit,
      string_eq_ok, number_eq_ok, requireAttempt_eq_ok, currentLease_eq_ok] at applied
    obtain ⟨attemptId, ⟨named, -⟩, -, attempt, present, leaseId, ⟨leased, -⟩, token, tokened,
      lease, ⟨held, current⟩, -⟩ := applied
    exact ⟨⟨attemptId, leaseId, token⟩, ⟨named, leased, tokened⟩, attempt, lease, present, held,
      current⟩

/-- An applied write carries the latest lease of its attempt. -/
theorem applyOrchestrationEvent_current {write : FencedWrite}
    (written : fencedWrite env.toDecoders event = .ok write)
    (applied : applyOrchestrationEvent env state event = .ok after) :
    CurrentWrite state write := by
  have stated (kind : event.type = .attemptStarted ∨ event.type = .attemptLeaseRenewed ∨
      event.type = .attemptSuspended ∨ event.type = .attemptLeaseExpired ∨
      event.type = .attemptModelMoved) (states : StatesWrite event write) :
      CurrentWrite state write := by
    obtain ⟨found, same, current⟩ := applyOrchestrationEvent_states kind applied
    rw [states.unique same]
    exact current
  unfold fencedWrite at written
  split at written
  case h_6 kind =>
    simp only [applyOrchestrationEvent, kind, applyAttemptCheckpointed, bind_eq_ok, exists_unit,
      pure_eq_ok, string_eq_ok] at applied written
    obtain ⟨checkpoint, decoded, leaseId, ⟨named, -⟩, rfl⟩ := written
    obtain ⟨checkpoint', decoded', leaseId', ⟨named', -⟩, -, attempt, guarded, -⟩ := applied
    obtain rfl := Except.ok.inj (decoded.symm.trans decoded')
    obtain rfl := Json.str.inj (Option.some.inj (named.symm.trans named'))
    obtain ⟨present, -, lease, held, current⟩ := assertRunningAttemptLease_spec guarded
    exact ⟨attempt, lease, present, held, current⟩
  case h_7 kind =>
    simp only [applyOrchestrationEvent, kind, applyAttemptUsageRegistered, bind_eq_ok,
      exists_unit, pure_eq_ok, dispatchIdentifier_eq_ok] at applied written
    obtain ⟨attemptId, ⟨named, -⟩, identity, decoded, rfl⟩ := written
    obtain ⟨attemptId', ⟨named', -⟩, -, identity', decoded', -, -, attempt, guarded, -⟩ := applied
    obtain rfl := Json.str.inj (Option.some.inj (named.symm.trans named'))
    obtain rfl := Except.ok.inj (decoded.symm.trans decoded')
    obtain ⟨present, -, lease, held, current⟩ := assertRunningAttemptLease_spec guarded
    exact ⟨attempt, lease, present, held, current⟩
  case h_8 kind =>
    simp only [applyOrchestrationEvent, kind, applyAttemptFinished, bind_eq_ok, pure_eq_ok,
      Prod.exists] at applied written
    obtain ⟨result, decoded, rfl⟩ := written
    obtain ⟨result', decoded', attempt, task, guarded, -⟩ := applied
    obtain rfl := Except.ok.inj (decoded.symm.trans decoded')
    have admitted := assertAttemptFinishTransition_spec guarded
    obtain ⟨lease, held, current⟩ := admitted.current
    exact ⟨attempt, lease, admitted.present, held, current⟩
  case h_9 => cases written
  all_goals
    next kind =>
      refine stated (by simp [kind]) ?_
      simp only [bind_eq_ok, pure_eq_ok, string_eq_ok, number_eq_ok] at written
      obtain ⟨attemptId, ⟨named, -⟩, leaseId, ⟨leased, -⟩, token, tokened, rfl⟩ := written
      exact ⟨named, leased, tokened⟩

/-- One writer: over every accepted log the leases of an attempt are numbered 1, 2, 3, …, the
attempt holds the last of them, every other write is refused, results and checkpoints stay within
the held lease, and a terminal attempt keeps its status, result and lease. -/
theorem lease_fencing_admits_one_writer (env : Environment) (events : List OrchestrationEvent)
    (projection : TaskRuntimeProjection)
    (accepted : projectOrchestrationEvents env events = .ok projection) (attemptId : String) :
    let leases := givenLeases env.toDecoders attemptId (appliedSteps env events emptyProjection)
    leases.map AttemptLease.fencingToken = List.range' 1 leases.length ∧
    heldPair (projection.attempts.get? attemptId) = leases.getLast?.map AttemptLease.pair ∧
    (∀ event write, projection.lastOrdinal < event.ordinal →
      fencedWrite env.toDecoders event = .ok write → ¬CurrentWrite projection write →
      ∃ error, reduceOrchestrationEvent env projection event = .error error) ∧
    (∀ attempt, projection.attempts.get? attemptId = some attempt →
      (∀ result, attempt.result = some result → ∃ lease, attempt.lease = some lease ∧
        result.leaseId = lease.leaseId ∧ result.fencingToken = lease.fencingToken) ∧
      ∀ checkpointId checkpoint, projection.checkpoints.get? checkpointId = some checkpoint →
        checkpoint.attemptId = attemptId → ∃ lease, attempt.lease = some lease ∧
          checkpoint.fencingToken ≤ lease.fencingToken) ∧
    ∀ attempt, projection.attempts.get? attemptId = some attempt →
      terminalAttemptStatus attempt.status = true →
      ∀ laterEvents later, reduceOrchestrationEvents env laterEvents projection = .ok later →
        ∃ next, later.attempts.get? attemptId = some next ∧ next.status = attempt.status ∧
          next.result = attempt.result ∧ next.lease = attempt.lease := by
  have run : AcceptedLog env (appliedSteps env events emptyProjection) projection :=
    reduceOrchestrationEvents_execution accepted
  have fenced := run.fenced attemptId
  refine ⟨fenced.numbered, fenced.held, ?_, ?_, ?_⟩
  · intro event write fresh written stale
    cases reduced : reduceOrchestrationEvent env projection event with
    | error error => exact ⟨error, rfl⟩
    | ok after =>
        rcases reduceOrchestrationEvent_spec reduced with ⟨repeated, -⟩ | ⟨-, -, state, applied, -⟩
        · exact absurd repeated (Nat.not_le.mpr fresh)
        · exact absurd (applyOrchestrationEvent_current written applied) stale
  · intro attempt present
    constructor
    · intro result reported
      obtain ⟨lease, held, pair⟩ := Option.map_eq_some_iff.mp (fenced.result present reported).2
      simp only [Option.bind_some] at held
      exact ⟨lease, held, (congrArg Prod.fst pair).symm, (congrArg Prod.snd pair).symm⟩
    · rintro checkpointId checkpoint recorded rfl
      obtain ⟨holder, lease, found, held, bounded⟩ := run.checkpointsFenced recorded
      obtain rfl := Option.some.inj (present.symm.trans found)
      exact ⟨lease, held, bounded⟩
  · intro attempt present terminal laterEvents later continued
    exact terminal_frozen_after_execution run.wellKeyed
      (reduceOrchestrationEvents_execution continued) present terminal

def finishedAttemptCalls : List Call :=
  [givenCall "1" (givenObjective "objective" []), givenCall "2" (givenTask "objective" "task" []),
    givenCall "3" (givenAttempt "task"),
    givenCall "4" (givenGrant "objective" "task" "attempt-3"),
    givenCall "5" (givenLeasing "attempt-3" none),
    givenCall "6" (givenResult "objective" "task" "attempt-3" "lease-5" [])]

/-- The result of the given calls carries the lease its attempt holds. -/
theorem finished_attempt_carries_its_lease : ∃ events projection attempt result lease,
    projectOrchestrationEvents givenEnvironment events = .ok projection ∧
      projection.attempts.get? "attempt-3" = some attempt ∧ attempt.result = some result ∧
        attempt.lease = some lease ∧ result.fencingToken = lease.fencingToken := by
  obtain ⟨projection, run, reached, finished⟩ := runtimeRun_of_calls givenEnvironment
    finishedAttemptCalls
    (fun projection =>
      (projection.attempts.get? "attempt-3").any fun attempt => attempt.result.isSome)
    (by decide +kernel)
  obtain ⟨events, accepted⟩ := reached.events
  simp only [Option.any_eq_true, Option.isSome_iff_exists] at finished
  obtain ⟨attempt, present, result, reported⟩ := finished
  obtain ⟨-, -, -, fenced, -⟩ :=
    lease_fencing_admits_one_writer givenEnvironment events projection accepted "attempt-3"
  obtain ⟨lease, held, -, token⟩ := (fenced attempt present).1 result reported
  exact ⟨events, projection, attempt, result, lease, accepted, present, reported, held, token⟩

end PiAdaptative.TaskRuntime
