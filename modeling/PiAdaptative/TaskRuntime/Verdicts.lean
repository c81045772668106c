import PiAdaptative.TaskRuntime.LeaseFencing
import PiAdaptative.TaskRuntime.Reviews

/-!
# Order of verdicts

A verdict is recorded on an attempt that finished before, and stays.  A historical verdict on a
task identifies no attempt when it is recorded; it is harmless as long as no later attempt becomes
the only one its verifier may be taken to have reviewed.
-/

namespace PiAdaptative.TaskRuntime

variable {env : Environment} {event : OrchestrationEvent}
variable {state after : TaskRuntimeProjection} {attemptId taskId : String}

/-! ## What the order is about -/

def FinishesAttempt (env : Environment) (event : OrchestrationEvent) (attemptId : String) : Prop :=
  event.type = .attemptFinished ∧ ∃ result,
    resultFromPayload env.toDecoders event.payload = .ok result ∧ result.attemptId = attemptId

structure RecordsVerdict (env : Environment) (state : TaskRuntimeProjection)
    (event : OrchestrationEvent) (attemptId : String) (verdict : AttemptVerification) : Prop where
  kind : event.type = .taskVerificationFinished
  stated : verdictFromEvent event = .ok verdict.toVerificationRecord
  subject : verdict.subjectAttemptId = attemptId
  recorded : ∃ after attempt, Applied env state event after ∧
    after.attempts.get? attemptId = some attempt ∧ attempt.verification = some verdict

/-- Verdicts of a projection follow their attempts in the history before it. -/
structure VerdictsOrdered (env : Environment)
    (history : List (TaskRuntimeProjection × OrchestrationEvent))
    (state : TaskRuntimeProjection) : Prop where
  finished : ∀ attemptId attempt verdict, state.attempts.get? attemptId = some attempt →
    attemptVerification state.tasks state.attempts attempt = some verdict →
    ∃ entry ∈ history, FinishesAttempt env entry.2 attemptId
  recorded : ∀ attemptId attempt verdict, state.attempts.get? attemptId = some attempt →
    attemptVerification state.tasks state.attempts attempt = some verdict →
    ∀ earlier entry later, history = earlier ++ entry :: later →
      FinishesAttempt env entry.2 attemptId →
      ∃ recording ∈ later, RecordsVerdict env recording.1 recording.2 attemptId verdict
  stands : ∀ entry ∈ history, ∀ attemptId attempt verdict,
    entry.1.attempts.get? attemptId = some attempt →
    attemptVerification entry.1.tasks entry.1.attempts attempt = some verdict →
    ∃ next current, state.attempts.get? attemptId = some next ∧
      attemptVerification state.tasks state.attempts next = some current ∧
      SameVerdict verdict.toVerificationRecord current.toVerificationRecord

/-- The event finishes the first attempt of a task that a verifier may be taken to have
reviewed. -/
def BecomesSubject (env : Environment) (state : TaskRuntimeProjection)
    (event : OrchestrationEvent) (taskId : String) (task : TaskRuntimeState)
    (verifier : TaskContract) : Prop :=
  event.type = .attemptFinished ∧ ∃ result attempt,
    resultFromPayload env.toDecoders event.payload = .ok result ∧
    result.nextAction = some INDEPENDENT_VERIFICATION_REQUIRED ∧
    state.attempts.get? result.attemptId = some attempt ∧ attempt.taskId = taskId ∧
    result.attemptId ∈ task.attemptIds ∧
    verifier.verificationOfAttemptId.all (· = result.attemptId) = true ∧
    (verifier.verificationOfAttemptId = none →
      settledBy state.attempts verifier.taskId task.attemptIds = []) ∧
    subjectCandidates state.attempts taskId verifier.verificationOfAttemptId task.attemptIds = []

/-- The event finishes an attempt that inherits a verdict recorded on its task before. -/
def InheritsVerdict (env : Environment) (state : TaskRuntimeProjection)
    (event : OrchestrationEvent) : Prop :=
  ∃ taskId task historical verifier, state.tasks.get? taskId = some task ∧
    task.verification = some historical ∧
    state.tasks.get? historical.verifierTaskId = some verifier ∧
    BecomesSubject env state event taskId task verifier.task

/-! ## The invariant -/

/-- The verifier is about the task, and no attempt of the task is known as its subject. -/
def Unreviewed (state : TaskRuntimeProjection) (taskId verifierTaskId : String) : Prop :=
  ∃ task verifier, state.tasks.get? taskId = some task ∧
    state.tasks.get? verifierTaskId = some verifier ∧
    verifier.task.verificationOfTaskId = some taskId ∧
    (reviewSubjects state.attempts verifier.task taskId task.attemptIds).length ≠ 1

/-- The invariant under which the verdict of an attempt is the one recorded on it. -/
structure VerdictInvariant (state : TaskRuntimeProjection) : Prop where
  keyed : WellKeyed state
  finished : ∀ {attemptId attempt}, state.attempts.get? attemptId = some attempt →
    attempt.result.isSome = true → terminalAttemptStatus attempt.status = true
  asked : ∀ {attemptId attempt}, state.attempts.get? attemptId = some attempt →
    attempt.verification.isSome = true → requiresVerification attempt = true
  retained : ∀ {taskId task}, state.tasks.get? taskId = some task → task.attemptIds.Nodup ∧
    ∀ id ∈ task.attemptIds, (state.attempts.get? id).isSome = true
  unknown : ∀ {taskId task historical}, state.tasks.get? taskId = some task →
    task.verification = some historical → Unreviewed state taskId historical.verifierTaskId

theorem verdictInvariant_emptyProjection : VerdictInvariant emptyProjection where
  keyed := wellKeyed_emptyProjection
  finished found := by simp [emptyProjection] at found
  asked found := by simp [emptyProjection] at found
  retained found := by simp [emptyProjection] at found
  unknown found := by simp [emptyProjection] at found

variable {verifierTaskId : String}

theorem Unreviewed.subject {verifier : TaskRuntimeState}
    (unreviewed : Unreviewed state taskId verifierTaskId)
    (present : state.tasks.get? verifierTaskId = some verifier) :
    verificationSubjectAttempt state.tasks state.attempts verifier.task = none := by
  obtain ⟨task, found, owner, presentVerifier, about, unknown⟩ := unreviewed
  obtain rfl := Option.some.inj (presentVerifier.symm.trans present)
  rw [verificationSubjectAttempt_eq about owner]
  exact only?_eq_none.mpr unknown

variable {attempt : AttemptRuntimeState}

/-- Under the invariant, the verdict of an attempt is the one recorded on it. -/
theorem VerdictInvariant.verdict (invariant : VerdictInvariant state)
    (present : state.attempts.get? attemptId = some attempt) :
    attemptVerification state.tasks state.attempts attempt = attempt.verification := by
  unfold attemptVerification
  split
  next unasked =>
    symm
    by_contra recorded
    have asks := invariant.asked present (Option.isSome_iff_ne_none.mpr recorded)
    rw [unasked] at asks
    cases asks
  · cases recorded : attempt.verification with
    | some verdict => rfl
    | none =>
        cases owner : state.tasks.get? attempt.taskId with
        | none => simp
        | some task =>
            cases history : task.verification with
            | none => simp [history]
            | some historical =>
                have unreviewed := invariant.unknown owner history
                have ⟨_, verifier, _, found, _⟩ := unreviewed
                simp [history, found, unreviewed.subject found]

/-! ## Steps of one attempt -/

variable {attempt next : AttemptRuntimeState}

/-- Only finishing changes the result of an attempt. -/
theorem AttemptStep.result (step : AttemptStep env.toDecoders event state attemptId attempt next) :
    next.result = attempt.result ∨
      event.type = .attemptFinished ∧ ∃ result,
        resultFromPayload env.toDecoders event.payload = .ok result ∧
        result.attemptId = attemptId ∧ terminalAttemptStatus attempt.status = false ∧
        terminalAttemptStatus next.status = true ∧ next.result = some result := by
  cases step with
  | verified | pinned | granted | leased | checkpointed | suspended | resumed | ended =>
      exact Or.inl rfl
  | changed aggregate change => exact Or.inl change.frame.result
  | finished kind decoded target unfinished held current =>
      refine Or.inr ⟨kind, _, decoded, target, ?_, attemptStatus_terminal _, rfl⟩
      rcases unfinished with same | same <;> rw [same] <;> rfl

/-- Only a review changes the verdict recorded on an attempt. -/
theorem AttemptStep.verification (invariant : VerdictInvariant state)
    (present : state.attempts.get? attemptId = some attempt)
    (step : AttemptStep env.toDecoders event state attemptId attempt next) :
    next.verification = attempt.verification ∨
      event.type = .taskVerificationFinished ∧ ∃ verification,
        verdictFromEvent event = .ok verification ∧ requiresVerification attempt = true ∧
        next.verification = some { verification with subjectAttemptId := attemptId } ∧
        (∃ verifier subject, state.tasks.get? verification.verifierTaskId = some verifier ∧
          verificationSubjectAttempt state.tasks state.attempts verifier.task = some subject) ∧
        ∀ existing, attempt.verification = some existing →
          SameVerdict existing.toVerificationRecord verification := by
  cases step with
  | granted | leased | checkpointed | suspended | resumed | ended | finished => exact Or.inl rfl
  | changed aggregate change => exact Or.inl change.frame.verification
  | pinned settled unpinned =>
      rw [invariant.verdict present, unpinned] at settled
      cases settled
  | verified kind decoded asks identified agreeing =>
      obtain ⟨verifier, subject, found, subjectOf, -⟩ := identified
      rw [invariant.verdict present] at agreeing
      exact Or.inr ⟨kind, _, decoded, asks, rfl, ⟨verifier, subject, found, subjectOf⟩, agreeing⟩

/-! ## Reviews stay without a subject -/

variable {target : Option AttemptRuntimeState}

theorem AttemptEffect.settledFor
    (invariant : VerdictInvariant state) (unreviewed : Unreviewed state taskId verifierTaskId)
    (effect : AttemptEffect env.toDecoders event state attemptId
      (state.attempts.get? attemptId) target) :
    settledFor verifierTaskId target =
      settledFor verifierTaskId (state.attempts.get? attemptId) := by
  generalize present : state.attempts.get? attemptId = source at effect
  cases effect with
  | unchanged => rfl
  | queued => rfl
  | @stepped attempt next step =>
      rcases step.verification invariant present with same |
        ⟨-, verification, -, -, recorded, ⟨verifier, subject, found, subjectOf⟩, agreeing⟩
      · simp [TaskRuntime.settledFor, same]
      · have other : verification.verifierTaskId ≠ verifierTaskId := by
          rintro rfl
          rw [unreviewed.subject found] at subjectOf
          cases subjectOf
        cases earlier : attempt.verification with
        | none => simp [TaskRuntime.settledFor, recorded, earlier, other]
        | some existing =>
            have same := (agreeing existing earlier).1
            simp [TaskRuntime.settledFor, recorded, earlier, other, same]

/-- Only an attempt that finishes starts to ask for review. -/
theorem AttemptEffect.asksReview (taskId : String)
    (invariant : VerdictInvariant state)
    (effect : AttemptEffect env.toDecoders event state attemptId
      (state.attempts.get? attemptId) target) :
    asksReview taskId target = asksReview taskId (state.attempts.get? attemptId) ∨
      event.type = .attemptFinished ∧ ∃ result attempt,
        resultFromPayload env.toDecoders event.payload = .ok result ∧
        result.attemptId = attemptId ∧ state.attempts.get? attemptId = some attempt ∧
        TaskRuntime.asksReview taskId (some attempt) = false ∧
        (TaskRuntime.asksReview taskId target = true →
          result.nextAction = some INDEPENDENT_VERIFICATION_REQUIRED ∧
            attempt.taskId = taskId) := by
  generalize present : state.attempts.get? attemptId = source at effect
  cases effect with
  | unchanged => exact Or.inl rfl
  | queued => exact Or.inl (by simp [TaskRuntime.asksReview, queuedAttempt, requiresVerification])
  | @stepped attempt next step =>
      have owner := step.identity.2
      rcases step.result with same | ⟨kind, result, decoded, target, live, -, recorded⟩
      · exact Or.inl (by
          simp only [TaskRuntime.asksReview, requiresVerification, same, owner, Option.any_some])
      · have unfinished : attempt.result = none := by
          by_contra finished
          have terminal := invariant.finished present (Option.isSome_iff_ne_none.mpr finished)
          rw [live] at terminal
          cases terminal
        refine Or.inr ⟨kind, result, attempt, decoded, target, rfl, ?_, fun asks => ?_⟩
        · simp [TaskRuntime.asksReview, requiresVerification, unfinished]
        · simp only [TaskRuntime.asksReview, requiresVerification, recorded, owner,
            Option.any_some, Bool.and_eq_true, decide_eq_true_eq] at asks
          exact ⟨asks.2, asks.1⟩

/-- A verifier without a subject stays without one, unless the event finishes its first. -/
theorem Transition.unreviewed (invariant : VerdictInvariant state)
    (taken : Transition env event state after)
    (unreviewed : Unreviewed state taskId verifierTaskId)
    (barred : ∀ {task verifier}, state.tasks.get? taskId = some task →
      state.tasks.get? verifierTaskId = some verifier →
      ¬BecomesSubject env state event taskId task verifier.task) :
    Unreviewed after taskId verifierTaskId := by
  have effects := taken.attempt_effect invariant.keyed
  have settled := fun id => (effects id).settledFor invariant unreviewed
  obtain ⟨task, verifier, owner, found, about, unknown⟩ := unreviewed
  obtain rfl := invariant.keyed.tasks found
  have kept : (reviewSubjects after.attempts verifier.task taskId task.attemptIds).length ≠ 1 := by
    by_cases same : ∀ id ∈ task.attemptIds, asksReview taskId (after.attempts.get? id) =
        asksReview taskId (state.attempts.get? id)
    · have congruent := length_reviewSubjects_congr []
        (fun id _ => settled id) same (by simp)
      rw [List.append_nil] at congruent
      rwa [congruent]
    · simp only [not_forall] at same
      obtain ⟨id, listed, differs⟩ := same
      obtain ⟨kind, result, attempt, decoded, rfl, present, unasked, asked⟩ :=
        ((effects id).asksReview taskId invariant).resolve_left differs
      refine length_reviewSubjects_ne_one (fun id _ => settled id) (fun other _ apart => ?_)
        (present ▸ unasked) unknown fun asks _ bound free empty => ?_
      · rcases (effects other).asksReview taskId invariant with same |
          ⟨-, again, -, decodedAgain, named, -⟩
        · exact same
        · obtain rfl := Except.ok.inj (decoded.symm.trans decodedAgain)
          exact absurd named.symm apart
      · exact barred owner found ⟨kind, result, attempt, decoded, (asked asks).1, present,
          (asked asks).2, listed, bound, free, empty⟩
  have taskEffect := taken.task_effect taskId
  have verifierEffect := taken.task_effect verifier.task.taskId
  rw [owner] at taskEffect
  rw [found] at verifierEffect
  generalize laterTask : after.tasks.get? taskId = taskTarget at taskEffect
  generalize laterVerifier : after.tasks.get? verifier.task.taskId = verifierTarget at verifierEffect
  cases taskEffect with
  | changed taskChange =>
      cases verifierEffect with
      | changed verifierChange =>
          obtain ⟨status, moment, contract⟩ := verifierChange.contract
          refine ⟨_, _, laterTask, laterVerifier, by rw [contract]; exact about, ?_⟩
          rw [contract]
          rcases taskChange.attempts with same | ⟨fresh, absent, -, added⟩
          · rw [same]
            exact kept
          · rw [added]
            have idle : ∀ id ∈ [fresh],
                settledFor verifier.task.taskId (after.attempts.get? id) = false ∧
                  asksReview taskId (after.attempts.get? id) = false := by
              intro id member
              obtain rfl := List.mem_singleton.mp member
              refine ⟨by rw [settled id, absent]; rfl, ?_⟩
              rcases (effects id).asksReview taskId invariant with same |
                ⟨-, _, _, -, -, present, -⟩
              · rw [same, absent]
                rfl
              · rw [absent] at present
                cases present
            have congruent : (reviewSubjects after.attempts verifier.task taskId
                (task.attemptIds ++ [fresh])).length =
                  (reviewSubjects after.attempts verifier.task taskId task.attemptIds).length :=
              length_reviewSubjects_congr [fresh] (fun _ _ => rfl) (fun _ _ => rfl) idle
            exact congruent ▸ kept

/-! ## Every transition -/

theorem requiresVerification_finished (asks : requiresVerification attempt = true) :
    attempt.result.isSome = true := by
  cases found : attempt.result with
  | some result => rfl
  | none =>
      rw [requiresVerification, found] at asks
      cases asks

theorem AttemptStep.stillAsks (invariant : VerdictInvariant state)
    (present : state.attempts.get? attemptId = some attempt)
    (step : AttemptStep env.toDecoders event state attemptId attempt next)
    (asks : requiresVerification attempt = true) : requiresVerification next = true := by
  rcases step.result with same | ⟨-, result, -, -, live, -, -⟩
  · rwa [requiresVerification, same]
  · rw [invariant.finished present (requiresVerification_finished asks)] at live
    cases live

/-- Every transition but the finish of an attempt that inherits a verdict keeps the invariant. -/
theorem Transition.verdictInvariant (invariant : VerdictInvariant state)
    (taken : Transition env event state after)
    (harmless : event.type = .attemptFinished → ¬InheritsVerdict env state event) :
    VerdictInvariant after where
  keyed := taken.wellKeyed invariant.keyed
  finished {attemptId attempt} found held := by
    have effect := taken.attempt_effect invariant.keyed attemptId
    rw [found] at effect
    generalize earlier : state.attempts.get? attemptId = source at effect
    cases effect with
    | unchanged => exact invariant.finished earlier held
    | queued => cases held
    | stepped step =>
        rcases step.result with same | ⟨-, -, -, -, -, terminal, -⟩
        · have terminal := invariant.finished earlier (same ▸ held)
          rw [(step.terminal_frozen terminal).1]
          exact terminal
        · exact terminal
  asked {attemptId attempt} found held := by
    have effect := taken.attempt_effect invariant.keyed attemptId
    rw [found] at effect
    generalize earlier : state.attempts.get? attemptId = source at effect
    cases effect with
    | unchanged => exact invariant.asked earlier held
    | queued => cases held
    | stepped step =>
        rcases step.verification invariant earlier with same | ⟨-, -, -, asks, -⟩
        · exact step.stillAsks invariant earlier (invariant.asked earlier (same ▸ held))
        · exact step.stillAsks invariant earlier asks
  retained {taskId task} found := by
    have stays : ∀ {id}, (state.attempts.get? id).isSome = true →
        (after.attempts.get? id).isSome = true := by
      intro id present
      have effect := taken.attempt_effect invariant.keyed id
      generalize state.attempts.get? id = source at effect present
      generalize after.attempts.get? id = target at effect
      cases effect with
      | unchanged => exact present
      | queued | stepped => rfl
    have effect := taken.task_effect taskId
    rw [found] at effect
    generalize earlier : state.tasks.get? taskId = source at effect
    cases effect with
    | created named unattempted => simp [unattempted]
    | changed change =>
        obtain ⟨distinct, present⟩ := invariant.retained earlier
        rcases change.attempts with same | ⟨fresh, absent, added, grown⟩
        · rw [same]
          exact ⟨distinct, fun id member => stays (present id member)⟩
        · rw [grown]
          refine ⟨?_, ?_⟩
          · refine List.nodup_append.mpr ⟨distinct, List.nodup_singleton _, ?_⟩
            rintro id member _ other rfl
            obtain rfl := List.mem_singleton.mp other
            have held := present _ member
            rw [absent] at held
            cases held
          · intro id member
            rcases List.mem_append.mp member with listed | new
            · exact stays (present id listed)
            · obtain rfl := List.mem_singleton.mp new
              exact added
  unknown {taskId task historical} found recorded := by
    have effect := taken.task_effect taskId
    rw [found] at effect
    generalize earlier : state.tasks.get? taskId = source at effect
    cases effect with
    | created named unattempted unverified =>
        rw [unverified] at recorded
        cases recorded
    | @changed source _ change =>
        rcases change.verification with same |
          ⟨kind, verification, verifier, stated, present, about, unknown⟩
        · rw [same] at recorded
          refine taken.unreviewed invariant (invariant.unknown earlier recorded) ?_
          intro owner verifier held present becomes
          obtain rfl := Option.some.inj (earlier.symm.trans held)
          exact harmless becomes.1 ⟨taskId, source, historical, verifier, held, recorded, present,
            becomes⟩
        · obtain rfl := Option.some.inj (stated.symm.trans recorded)
          refine taken.unreviewed invariant ⟨source, verifier, earlier, present, about, ?_⟩ ?_
          · rw [verificationSubjectAttempt_eq about earlier] at unknown
            exact only?_eq_none.mp unknown
          · intro _ _ _ _ becomes
            cases kind.symm.trans becomes.1

/-! ## Applied events -/

theorem SameVerdict.refl (verdict : VerificationRecord) : SameVerdict verdict verdict :=
  ⟨rfl, rfl, rfl, rfl⟩

theorem SameVerdict.trans {first second third : VerificationRecord}
    (earlier : SameVerdict first second) (later : SameVerdict second third) :
    SameVerdict first third :=
  ⟨earlier.1.trans later.1, earlier.2.1.trans later.2.1, earlier.2.2.1.trans later.2.2.1,
    earlier.2.2.2.trans later.2.2.2⟩

/-- What an event does to the result and the verdict of an attempt. -/
structure OutcomeMoves (env : Environment) (event : OrchestrationEvent) (attemptId : String)
    (source target : Option AttemptRuntimeState) : Prop where
  retained : source.isSome = true → target.isSome = true
  result : target.bind AttemptRuntimeState.result = source.bind AttemptRuntimeState.result ∨
    FinishesAttempt env event attemptId
  /-- A recorded verdict is the one the event states, and agrees with an earlier one. -/
  verdict : target.bind AttemptRuntimeState.verification =
      source.bind AttemptRuntimeState.verification ∨
    event.type = .taskVerificationFinished ∧ ∃ verdict,
      verdictFromEvent event = .ok verdict.toVerificationRecord ∧
      verdict.subjectAttemptId = attemptId ∧
      target.bind AttemptRuntimeState.verification = some verdict ∧
      ∀ existing, source.bind AttemptRuntimeState.verification = some existing →
        SameVerdict existing.toVerificationRecord verdict.toVerificationRecord

theorem OutcomeMoves.refl (attempt : Option AttemptRuntimeState) :
    OutcomeMoves env event attemptId attempt attempt :=
  ⟨id, Or.inl rfl, Or.inl rfl⟩

theorem OutcomeMoves.trans {first second third : Option AttemptRuntimeState}
    (earlier : OutcomeMoves env event attemptId first second)
    (later : OutcomeMoves env event attemptId second third) :
    OutcomeMoves env event attemptId first third where
  retained := later.retained ∘ earlier.retained
  result := by
    rcases later.result with same | finishes
    · rw [same]
      exact earlier.result
    · exact Or.inr finishes
  verdict := by
    rcases later.verdict with same | ⟨kind, verdict, stated, subject, recorded, agreeing⟩
    · rw [same]
      exact earlier.verdict
    · refine Or.inr ⟨kind, verdict, stated, subject, recorded, fun existing held => ?_⟩
      rcases earlier.verdict with same | ⟨-, middle, -, -, between, agreed⟩
      · exact agreeing existing (same.trans held)
      · exact (agreed existing held).trans (agreeing middle between)

theorem Transition.outcomeMoves (invariant : VerdictInvariant state)
    (taken : Transition env event state after) (attemptId : String) :
    OutcomeMoves env event attemptId (state.attempts.get? attemptId)
      (after.attempts.get? attemptId) := by
  have effect := taken.attempt_effect invariant.keyed attemptId
  generalize earlier : state.attempts.get? attemptId = source at effect
  generalize after.attempts.get? attemptId = target at effect
  cases effect with
  | unchanged => exact .refl _
  | queued => exact ⟨fun _ => rfl, Or.inl rfl, Or.inl rfl⟩
  | stepped step =>
      refine ⟨fun _ => rfl, ?_, ?_⟩
      · rcases step.result with same | ⟨kind, result, decoded, target, -⟩
        · exact Or.inl same
        · exact Or.inr ⟨kind, result, decoded, target⟩
      · rcases step.verification invariant earlier with same |
          ⟨kind, verification, decoded, -, recorded, -, agreeing⟩
        · exact Or.inl same
        · exact Or.inr ⟨kind, _, decoded, rfl, recorded, agreeing⟩

theorem Applied.verdicts (applied : Applied env state event after)
    (harmless : ¬InheritsVerdict env state event) (invariant : VerdictInvariant state) :
    VerdictInvariant after ∧ ∀ attemptId, OutcomeMoves env event attemptId
      (state.attempts.get? attemptId) (after.attempts.get? attemptId) := by
  refine applied.preserves (fun later => VerdictInvariant later ∧ ∀ attemptId,
      OutcomeMoves env event attemptId (state.attempts.get? attemptId)
        (later.attempts.get? attemptId))
    (fun state event => ¬InheritsVerdict env state event)
    (fun held => ⟨⟨⟨held.1.keyed.attempts, held.1.keyed.tasks⟩, held.1.finished, held.1.asked,
      held.1.retained, held.1.unknown⟩, held.2⟩) ?_ harmless ⟨invariant, fun _ => .refl _⟩
  intro earlier later met held taken
  refine ⟨taken.verdictInvariant held.1 fun kind => met ?_, fun attemptId =>
    (held.2 attemptId).trans (taken.outcomeMoves held.1 attemptId)⟩
  simp [OrchestrationEventType.isCompound, OrchestrationEventType.closesObjective,
    OrchestrationEventType.createsTask, kind]

/-- What finishing an attempt leaves. -/
theorem applyOrchestrationEvent_finish {result : WorkerResultContract}
    (applied : applyOrchestrationEvent env state event = .ok after)
    (kind : event.type = .attemptFinished)
    (decoded : resultFromPayload env.toDecoders event.payload = .ok result) :
    ∃ attempt next, state.attempts.get? result.attemptId = some attempt ∧
      terminalAttemptStatus attempt.status = false ∧
      after.attempts = state.attempts.set result.attemptId next ∧
      next.attemptId = attempt.attemptId ∧ next.taskId = attempt.taskId ∧
      next.result = some result ∧ next.verification = attempt.verification ∧
      ∀ {taskId task}, state.tasks.get? taskId = some task →
        ∃ current, after.tasks.get? taskId = some current ∧
          SameContract task.task current.task ∧ current.attemptIds = task.attemptIds ∧
          current.verification = task.verification := by
  simp only [applyOrchestrationEvent, kind, applyAttemptFinished, bind_eq_ok,
    Prod.exists] at applied
  obtain ⟨stated, again, attempt, owner, guarded, agents, released, refreshed⟩ := applied
  obtain rfl := Except.ok.inj (decoded.symm.trans again)
  have admitted := assertAttemptFinishTransition_spec guarded
  obtain ⟨tasks, rfl, made⟩ := refreshReadyTasks_spec refreshed
  refine ⟨attempt, _, admitted.present, ?_, rfl, rfl, rfl, rfl, rfl, ?_⟩
  · rcases admitted.unfinished with same | same <;> rw [same] <;> rfl
  · intro taskId task found
    have middle : ∃ current, (state.tasks.set result.taskId
          (owner.withStatus (taskStatusForResult result.status) event.occurredAt)).get? taskId =
            some current ∧ SameContract task.task current.task ∧
          current.attemptIds = task.attemptIds ∧ current.verification = task.verification := by
      by_cases same : taskId = result.taskId
      · subst same
        have owned : state.tasks.get? result.taskId = some owner := admitted.owned ▸ admitted.owner
        obtain rfl := Option.some.inj (owned.symm.trans found)
        exact ⟨_, Record.get?_set_self _ _ _, .withStatus _ _ _, rfl, rfl⟩
      · exact ⟨task, by rw [Record.get?_set_of_ne same, found], .refl _, rfl, rfl⟩
    obtain ⟨current, present, contract, listed, verdict⟩ := middle
    obtain ⟨final, stored, rfl | ⟨-, rfl⟩⟩ := made.target present
    · exact ⟨_, stored, contract, listed, verdict⟩
    · exact ⟨_, stored, contract.trans (.withStatus _ _ _), listed, verdict⟩

/-- An attempt that inherits a verdict has it as soon as it finishes. -/
theorem InheritsVerdict.inherited (invariant : VerdictInvariant state)
    (inherits : InheritsVerdict env state event)
    (applied : applyOrchestrationEvent env state event = .ok after) :
    ∃ attemptId attempt verdict, FinishesAttempt env event attemptId ∧
      after.attempts.get? attemptId = some attempt ∧
      attemptVerification after.tasks after.attempts attempt = some verdict := by
  obtain ⟨taskId, task, historical, verifier, owner, recorded, found, kind, result, stated,
    decoded, asks, present, target, listed, bound, unsettled, unasked⟩ := inherits
  obtain ⟨attempt, next, stored, live, attempts, identity, owned, held, verdict, tasks⟩ :=
    applyOrchestrationEvent_finish applied kind decoded
  obtain rfl := Option.some.inj (present.symm.trans stored)
  obtain ⟨current, laterTask, -, sameIds, sameVerdict⟩ := tasks owner
  obtain ⟨review, laterVerifier, ⟨status, moment, contract⟩, -, -⟩ := tasks found
  obtain ⟨-, verifier', -, found', about, -⟩ := invariant.unknown owner recorded
  obtain rfl := Option.some.inj (found.symm.trans found')
  have unfinished : stated.result = none := by
    by_contra finished
    have terminal := invariant.finished stored (Option.isSome_iff_ne_none.mpr finished)
    rw [live] at terminal
    cases terminal
  have unverified : stated.verification = none := by
    by_contra verified
    have asked := invariant.asked stored (Option.isSome_iff_ne_none.mpr verified)
    rw [requiresVerification, unfinished] at asked
    cases asked
  have requires : requiresVerification next = true := by
    simp [requiresVerification, held, asks]
  have subject : reviewSubjects after.attempts review.task taskId current.attemptIds = [next] := by
    rw [contract, sameIds]
    refine reviewSubjects_first (invariant.retained owner).1 listed ?_ ?_ bound ?_ ?_ unsettled unasked
    · rw [attempts, Record.get?_set_self]
    · simp [asksReview, owned, target, requires]
    · intro id _
      rw [attempts, Record.get?_set]
      split
      next same => simp [settledFor, same, stored, verdict]
      · rfl
    · intro id _ apart
      rw [attempts, Record.get?_set_of_ne apart]
  refine ⟨result.attemptId, next, { historical with subjectAttemptId := next.attemptId },
    ⟨kind, result, decoded, rfl⟩, by rw [attempts, Record.get?_set_self], ?_⟩
  have reviewed : verificationSubjectAttempt after.tasks after.attempts review.task =
      some next := by
    rw [verificationSubjectAttempt_eq (by rw [contract]; exact about) laterTask, subject]
    rfl
  simp [attemptVerification, requires, verdict, unverified, owned, target, laterTask, sameVerdict,
    recorded, laterVerifier, reviewed]

/-! ## Whole runs -/

/-- What holds of a history whose steps let no attempt inherit a verdict. -/
structure VerdictHistory (env : Environment)
    (history : List (TaskRuntimeProjection × OrchestrationEvent))
    (state : TaskRuntimeProjection) : Prop where
  invariant : VerdictInvariant state
  finished : ∀ {attemptId attempt}, state.attempts.get? attemptId = some attempt →
    attempt.result.isSome = true → ∃ entry ∈ history, FinishesAttempt env entry.2 attemptId
  recorded : ∀ {attemptId attempt verdict}, state.attempts.get? attemptId = some attempt →
    attempt.verification = some verdict →
    ∀ {earlier entry later}, history = earlier ++ entry :: later →
      FinishesAttempt env entry.2 attemptId →
      ∃ recording ∈ later, RecordsVerdict env recording.1 recording.2 attemptId verdict
  stands : ∀ {entry}, entry ∈ history → ∀ {attemptId attempt verdict},
    entry.1.attempts.get? attemptId = some attempt →
    attemptVerification entry.1.tasks entry.1.attempts attempt = some verdict →
    ∃ next current, state.attempts.get? attemptId = some next ∧
      next.verification = some current ∧
      SameVerdict verdict.toVerificationRecord current.toVerificationRecord

variable {history : List (TaskRuntimeProjection × OrchestrationEvent)}

theorem verdictHistory_emptyProjection : VerdictHistory env [] emptyProjection where
  invariant := verdictInvariant_emptyProjection
  finished found := by simp [emptyProjection] at found
  recorded found := by simp [emptyProjection] at found
  stands member := by simp at member

theorem VerdictHistory.ordered (held : VerdictHistory env history state) :
    VerdictsOrdered env history state where
  finished attemptId attempt verdict present verified := by
    rw [held.invariant.verdict present] at verified
    refine held.finished present (requiresVerification_finished ?_)
    exact held.invariant.asked present (by rw [verified]; rfl)
  recorded attemptId attempt verdict present verified earlier entry later cut finishes := by
    rw [held.invariant.verdict present] at verified
    exact held.recorded present verified cut finishes
  stands entry member attemptId attempt verdict present verified := by
    obtain ⟨next, current, found, recorded, same⟩ := held.stands member present verified
    exact ⟨next, current, found, (held.invariant.verdict found).trans recorded, same⟩

variable {verdict : AttemptVerification}

/-- A recorded verdict survives an event. -/
theorem OutcomeMoves.stands (moves : OutcomeMoves env event attemptId (some attempt) target)
    (recorded : attempt.verification = some verdict) :
    ∃ next current, target = some next ∧ next.verification = some current ∧
      SameVerdict verdict.toVerificationRecord current.toVerificationRecord := by
  obtain ⟨next, rfl⟩ := Option.isSome_iff_exists.mp (moves.retained rfl)
  rcases moves.verdict with same | ⟨-, current, -, -, stated, agreeing⟩
  · exact ⟨next, verdict, rfl, same.trans recorded, .refl _⟩
  · exact ⟨next, current, rfl, stated, agreeing verdict recorded⟩

theorem VerdictInvariant.not_finishes (invariant : VerdictInvariant state)
    (applied : Applied env state event after)
    (present : state.attempts.get? attemptId = some attempt)
    (recorded : attempt.verification = some verdict) : ¬FinishesAttempt env event attemptId := by
  rintro ⟨kind, result, decoded, rfl⟩
  obtain ⟨-, reached, reduced, -⟩ := applied
  obtain ⟨stored, -, found, live, -⟩ := applyOrchestrationEvent_finish reduced kind decoded
  obtain rfl := Option.some.inj (present.symm.trans found)
  have terminal := invariant.finished present
    (requiresVerification_finished (invariant.asked present (by rw [recorded]; rfl)))
  rw [live] at terminal
  cases terminal

/-- An applied event that lets no attempt inherit a verdict extends the history. -/
theorem VerdictHistory.extend (held : VerdictHistory env history state)
    (applied : Applied env state event after) (harmless : ¬InheritsVerdict env state event) :
    VerdictHistory env (history ++ [(state, event)]) after := by
  obtain ⟨invariant, moves⟩ := applied.verdicts harmless held.invariant
  refine ⟨invariant, ?_, ?_, ?_⟩
  · intro attemptId attempt found finished
    have moved := moves attemptId
    rw [found] at moved
    rcases moved.result with same | finishes
    · cases earlier : state.attempts.get? attemptId with
      | none =>
          rw [earlier] at same
          rw [Option.bind_some, Option.bind_none] at same
          rw [same] at finished
          cases finished
      | some source =>
          rw [earlier, Option.bind_some, Option.bind_some] at same
          obtain ⟨entry, member, finishes⟩ := held.finished earlier (same ▸ finished)
          exact ⟨entry, List.mem_append_left _ member, finishes⟩
    · exact ⟨(state, event), by simp, finishes⟩
  · intro attemptId attempt verdict found recorded earlier entry later cut finishes
    have moved := moves attemptId
    rw [found] at moved
    rcases moved.verdict with same | ⟨kind, stated, decoded, subject, now, -⟩
    · cases source : state.attempts.get? attemptId with
      | none =>
          rw [source, Option.bind_some, Option.bind_none, recorded] at same
          cases same
      | some attempt =>
          rw [source, Option.bind_some, Option.bind_some] at same
          have before := same.symm.trans recorded
          rcases List.eq_nil_or_concat later with rfl | ⟨rest, final, rfl⟩
          · obtain ⟨-, last⟩ := List.append_inj' cut rfl
            obtain rfl := List.singleton_inj.mp last
            exact absurd finishes (held.invariant.not_finishes applied source before)
          · rw [List.concat_eq_append, ← List.cons_append, ← List.append_assoc] at cut
            obtain ⟨rfl, -⟩ := List.append_inj' cut rfl
            obtain ⟨recording, member, records⟩ := held.recorded source before rfl finishes
            exact ⟨recording, by simp [member], records⟩
    · rw [Option.bind_some, recorded] at now
      obtain rfl := Option.some.inj now
      refine ⟨(state, event), ?_, kind, decoded, subject, after, attempt, applied, found, recorded⟩
      rcases List.eq_nil_or_concat later with rfl | ⟨rest, final, rfl⟩
      · obtain ⟨-, last⟩ := List.append_inj' cut rfl
        obtain rfl := List.singleton_inj.mp last
        cases kind.symm.trans finishes.1
      · rw [List.concat_eq_append, ← List.cons_append, ← List.append_assoc] at cut
        obtain ⟨-, last⟩ := List.append_inj' cut rfl
        simp [List.singleton_inj.mp last]
  · intro entry member attemptId attempt verdict present verified
    rcases List.mem_append.mp member with earlier | last
    · obtain ⟨next, current, found, recorded, same⟩ := held.stands earlier present verified
      have moved := moves attemptId
      rw [found] at moved
      obtain ⟨final, standing, stored, kept, still⟩ := moved.stands recorded
      exact ⟨final, standing, stored, kept, same.trans still⟩
    · obtain rfl := List.mem_singleton.mp last
      rw [held.invariant.verdict present] at verified
      have moved := moves attemptId
      rw [present] at moved
      exact moved.stands verified

theorem VerdictHistory.not_ordered (held : VerdictHistory env history state)
    (applied : Applied env state event after) (inherits : InheritsVerdict env state event) :
    ¬VerdictsOrdered env (history ++ [(state, event)]) after := by
  obtain ⟨-, reached, reduced, rfl⟩ := applied
  obtain ⟨attemptId, attempt, verdict, finishes, present, verified⟩ :=
    inherits.inherited held.invariant reduced
  intro ordered
  obtain ⟨recording, impossible, -⟩ := ordered.recorded attemptId attempt verdict present verified
    history (state, event) [] rfl finishes
  cases impossible

/-- Verdicts follow their attempts and stand, in every projection of an accepted log, exactly when
no event of the log finishes an attempt that inherits a verdict recorded on its task before. -/
theorem verdicts_ordered_iff_none_inherited {projection : TaskRuntimeProjection}
    (log : AcceptedLog env history projection) :
    ((∀ earlier entry later, history = earlier ++ entry :: later →
        VerdictsOrdered env earlier entry.1) ∧ VerdictsOrdered env history projection) ↔
      ∀ entry ∈ history, ¬InheritsVerdict env entry.1 entry.2 :=
  Execution.throughout_iff _ _ _ verdictHistory_emptyProjection VerdictHistory.ordered
    (fun held applied harmless => held.extend applied harmless)
    (fun held applied inherits => held.not_ordered applied inherits) log

/-! ## A verdict before its subject -/

/-- Calls that lease the first attempt of a task. -/
def leasedAttemptCalls : List Call :=
  [givenCall "1" (givenObjective "objective" []), givenCall "2" (givenTask "objective" "task" []),
    givenCall "3" (givenAttempt "task"),
    givenCall "4" (givenGrant "objective" "task" "attempt-3"),
    givenCall "5" (givenLeasing "attempt-3" none)]

def historicalEvent (ordinal : Nat) (type : OrchestrationEventType) (aggregateId : String)
    (fields : List (String × Json)) : OrchestrationEvent :=
  { ordinal, eventId := s!"event-{ordinal}", type, aggregateId, actor := .runtime
    occurredAt := givenDay, idempotencyKey := none, payload := .obj fields }

/-- A historical verifier task, which names no attempt. -/
def historicalVerifier : Json :=
  .obj [("schemaVersion", .num 1), ("taskId", .str "verifier"), ("objectiveId", .str "objective"),
    ("title", .str "Review"), ("description", .str "Review"), ("role", .str "verifier"),
    ("status", .str "ready"), ("dependsOn", .arr []), ("requiredCapabilities", .arr []),
    ("acceptanceCriterionIds", .arr []), ("verificationOfTaskId", .str "task"),
    ("riskBudget", .obj []), ("createdAt", .str givenDay), ("updatedAt", .str givenDay)]

/-- The result that asks for the verification of the leased attempt. -/
def unverifiedResult : Json :=
  .obj [("schemaVersion", .num 1), ("resultId", .str "result"), ("objectiveId", .str "objective"),
    ("taskId", .str "task"), ("attemptId", .str "attempt-3"), ("leaseId", .str "lease-5"),
    ("fencingToken", .num 1), ("status", .str "completed"), ("reasonCode", .str "done"),
    ("summary", .str "Done"), ("artifacts", .arr []), ("evidence", .arr []), ("errors", .arr []),
    ("usage", .obj [("toolCalls", .num 0), ("wallClockMs", .num 0)]),
    ("nextAction", .str INDEPENDENT_VERIFICATION_REQUIRED), ("createdAt", .str givenDay)]

/-- The leased attempt finishes. -/
def unverifiedFinish : OrchestrationEvent :=
  historicalEvent 10 .attemptFinished "attempt-3" [("result", unverifiedResult)]

/-- A verifier task is created, its attempt is cancelled, and its verdict recorded on the task
whose attempt still works. -/
def earlyVerdictLog : List OrchestrationEvent :=
  [historicalEvent 6 .taskCreated "objective" [("task", historicalVerifier)],
    historicalEvent 7 .attemptQueued "verifier"
      [("attemptId", .str "review"), ("taskId", .str "verifier"),
        ("dispatch", .obj [("taskId", .str "verifier"), ("profileId", .str "profile"),
          ("instructions", .str "Review"), ("resourcePointerIds", .arr [])])],
    historicalEvent 8 .attemptCancelled "review"
      [("attemptId", .str "review"), ("reasonCode", .str "withdrawn")],
    historicalEvent 9 .taskVerificationFinished "task"
      [("taskId", .str "task"), ("verifierTaskId", .str "verifier"),
        ("verifierAttemptId", .str "review"), ("verdict", .str "inconclusive"),
        ("reasonCode", .str "withdrawn")]]

/-- The projection after the early verdict, and after the finish that inherits it. -/
def earlyVerdictCheck (projection : TaskRuntimeProjection) : Bool :=
  (reduceOrchestrationEvents givenEnvironment earlyVerdictLog projection).toOption.any fun middle =>
    middle.lastOrdinal = 9 &&
      (reduceOrchestrationEvent givenEnvironment middle unverifiedFinish).toOption.any fun last =>
        (last.attempts.get? "attempt-3").any fun attempt =>
          (attemptVerification last.tasks last.attempts attempt).isSome

theorem unverifiedFinish_finishes :
    FinishesAttempt givenEnvironment unverifiedFinish "attempt-3" := by
  refine ⟨rfl, ?_⟩
  have decoded : ((resultFromPayload givenEnvironment.toDecoders
      unverifiedFinish.payload).toOption.any fun result => result.attemptId = "attempt-3") := by
    decide +kernel
  simpa [Option.any_eq_true] using decoded

/-- The attempt of the early verdict has it before any event could have recorded it. -/
theorem earlyVerdictLog_not_ordered : ∃ history projection,
    AcceptedLog givenEnvironment history projection ∧
      ¬VerdictsOrdered givenEnvironment history projection := by
  obtain ⟨leased, run, reached, checked⟩ := runtimeRun_of_calls givenEnvironment
    leasedAttemptCalls earlyVerdictCheck (by decide +kernel)
  obtain ⟨history, log, -⟩ := reached.log
  simp only [earlyVerdictCheck, Option.any_eq_true, toOption_eq_some, Bool.and_eq_true,
    decide_eq_true_eq] at checked
  obtain ⟨middle, early, ordinal, last, finished, attempt, present, verified⟩ := checked
  obtain ⟨verdict, verified⟩ := Option.isSome_iff_exists.mp verified
  have earlyRun := reduceOrchestrationEvents_execution early
  have fresh : ¬unverifiedFinish.ordinal ≤ middle.lastOrdinal := by rw [ordinal]; decide
  obtain ⟨repeated, -⟩ | ⟨-, applied⟩ := reduceOrchestrationEvent_spec finished
  · exact absurd repeated fresh
  · refine ⟨_, last, .extend (log.trans earlyRun) applied, fun ordered => ?_⟩
    obtain ⟨recording, impossible, -⟩ := ordered.recorded "attempt-3" attempt verdict present
      verified _ (middle, unverifiedFinish) [] rfl unverifiedFinish_finishes
    cases impossible

/-- An attempt can carry a verdict that no event recorded after it finished. -/
theorem verdict_precedes_its_subject :
    ¬∀ env history projection, AcceptedLog env history projection →
      VerdictsOrdered env history projection := by
  intro ordered
  obtain ⟨history, projection, log, disordered⟩ := earlyVerdictLog_not_ordered
  exact disordered (ordered _ _ _ log)

/-- The log of the early verdict holds the finish that inherits it. -/
theorem early_verdict_was_inherited : ∃ history projection,
    AcceptedLog givenEnvironment history projection ∧
      ∃ entry ∈ history, InheritsVerdict givenEnvironment entry.1 entry.2 := by
  obtain ⟨history, projection, log, disordered⟩ := earlyVerdictLog_not_ordered
  refine ⟨history, projection, log, ?_⟩
  by_contra harmless
  refine disordered ((verdicts_ordered_iff_none_inherited log).mpr ?_).2
  exact fun entry member inherits => harmless ⟨entry, member, inherits⟩

end PiAdaptative.TaskRuntime
