import PiAdaptative.TaskRuntime.TaskSteps
import PiAdaptative.TaskRuntime.Calls

/-!
# The approval gate

An attempt that awaits an approval is queued without a grant, and a rejected approval ends the
attempt it names.  The gate of a grant and of a lease consults the approval it finds first, so it
holds as long as no pending approval stands behind an approved one when the gate is passed.
-/

namespace PiAdaptative.TaskRuntime

variable {env : Environment} {event : OrchestrationEvent}
variable {state after : TaskRuntimeProjection}

/-- The attempt holds no execution grant. -/
def AttemptRuntimeState.Ungranted (attempt : AttemptRuntimeState) : Prop :=
  attempt.grant = none ∧ truthy attempt.grantId = none

/-- An approval that is pending or rejected keeps its attempt from executing. -/
def ApprovalsRespected (state : TaskRuntimeProjection) : Prop :=
  ∀ approvalId approval attemptId attempt, state.approvals.get? approvalId = some approval →
    approval.status = .pending ∨ approval.status = .rejected →
    approval.request.attemptId = some attemptId → state.attempts.get? attemptId = some attempt →
    attempt.Ungranted ∧ attempt.status ≠ .leased ∧ attempt.status ≠ .running

/-- The event passes the gate of an attempt that still awaits an approval, because the approval
found first is an approved one. -/
def PassesAwaitedApproval (state : TaskRuntimeProjection) (event : OrchestrationEvent) : Prop :=
  (event.type = .attemptGrantBound ∨ event.type = .attemptLeased) ∧
    (∃ first, approvalForAttemptInProjection state event.aggregateId = some first ∧
      first.status = .approved) ∧
    ∃ awaited ∈ state.approvals.values,
      awaited.request.attemptId = some event.aggregateId ∧ awaited.status = .pending

/-- What an attempt with an unsettled approval of this status has not done. -/
def Withheld (approval : ApprovalStatus) (attempt : AttemptRuntimeState) : Prop :=
  attempt.Ungranted ∧
    (terminalAttemptStatus attempt.status = true ∨
      approval = .pending ∧ attempt.status = .queued)

structure GateInvariant (state : TaskRuntimeProjection) : Prop where
  keyed : WellKeyed state
  /-- An attempt with an unsettled approval exists and has neither grant nor lease. -/
  withheld : ∀ {approvalId approval attemptId}, state.approvals.get? approvalId = some approval →
    approval.status ≠ .approved → approval.request.attemptId = some attemptId →
    ∃ attempt, state.attempts.get? attemptId = some attempt ∧ Withheld approval.status attempt
  named : ∀ {attemptId attempt}, state.attempts.get? attemptId = some attempt →
    attempt.grant.isSome = true → (truthy attempt.grantId).isSome = true

theorem gateInvariant_emptyProjection : GateInvariant emptyProjection where
  keyed := wellKeyed_emptyProjection
  withheld found := by simp [emptyProjection] at found
  named found := by simp [emptyProjection] at found

theorem GateInvariant.respected (invariant : GateInvariant state) : ApprovalsRespected state := by
  intro approvalId approval attemptId attempt found unsettled names present
  obtain ⟨withheld, stored, ungranted, ended⟩ := invariant.withheld found
    (by rcases unsettled with same | same <;> simp [same]) names
  obtain rfl := Option.some.inj (stored.symm.trans present)
  refine ⟨ungranted, ?_⟩
  rcases ended with terminal | ⟨-, queued⟩
  · constructor <;> intro same <;> rw [same] at terminal <;> cases terminal
  · simp [queued]

variable {attemptId : String} {approval : ApprovalStatus}

/-- An event that passes no gate leaves an attempt withheld. -/
theorem AttemptStep.withheld {attempt next : AttemptRuntimeState} (step : AttemptStep env.toDecoders event state attemptId attempt next)
    (gate : event.type = .attemptGrantBound ∨ event.type = .attemptLeased →
      event.aggregateId ≠ attemptId)
    (withheld : Withheld approval attempt) : Withheld approval next := by
  obtain ⟨ungranted, held⟩ := withheld
  have idle : ¬(attempt.status = .leased ∨ attempt.status = .running) := by
    rcases held with terminal | ⟨-, queued⟩
    · rintro (same | same) <;> rw [same] at terminal <;> cases terminal
    · simp [queued]
  cases step with
  | verified | pinned | checkpointed => exact ⟨ungranted, held⟩
  | changed aggregate change =>
      have frame := change.frame
      refine ⟨⟨frame.grant.trans ungranted.1, ?_⟩, ?_⟩
      · rw [frame.grantId, ungranted.2]
      · rcases frame.status with same | ⟨leased, -⟩
        · rwa [same]
        · exact absurd (Or.inl leased) idle
  | granted open_ kind aggregate => exact absurd aggregate (gate (Or.inl kind))
  | leased kind decoded target queued fence aggregate =>
      exact absurd aggregate (gate (Or.inr kind))
  | suspended unfinished => exact absurd unfinished idle
  | resumed kind decoded target suspended =>
      rcases held with terminal | ⟨-, queued⟩
      · rw [suspended] at terminal
        cases terminal
      · rw [suspended] at queued
        cases queued
  | ended live terminal => exact ⟨ungranted, Or.inl terminal⟩
  | finished kind decoded target unfinished => exact absurd unfinished idle

variable {attempt : AttemptRuntimeState}

/-- An event that passes no gate leaves every withheld attempt withheld. -/
theorem Transition.withheld (keyed : WellKeyed state) (taken : Transition env event state after)
    (gate : event.type = .attemptGrantBound ∨ event.type = .attemptLeased →
      event.aggregateId ≠ attemptId)
    (present : state.attempts.get? attemptId = some attempt)
    (withheld : Withheld approval attempt) :
    ∃ next, after.attempts.get? attemptId = some next ∧ Withheld approval next := by
  have effect := taken.attempt_effect keyed attemptId
  rw [present] at effect
  generalize later : after.attempts.get? attemptId = target at effect
  cases effect with
  | unchanged => exact ⟨attempt, rfl, withheld⟩
  | stepped step => exact ⟨_, rfl, step.withheld gate withheld⟩

theorem AttemptStep.named {attempt next : AttemptRuntimeState}
    (step : AttemptStep env.toDecoders event state attemptId attempt next)
    (named : attempt.grant.isSome = true → (truthy attempt.grantId).isSome = true)
    (held : next.grant.isSome = true) : (truthy next.grantId).isSome = true := by
  cases step with
  | verified | pinned | checkpointed | leased | suspended | resumed | ended | finished => exact named held
  | changed aggregate change =>
      have frame := change.frame
      rw [frame.grantId]
      exact named (frame.grant ▸ held)
  | @granted grant open_ kind aggregate stated =>
      have nonempty : grant.grantId ≠ "" := by
        intro blank
        rw [blank] at stated
        exact stated rfl
      simp [truthy, nonempty]

theorem Transition.named (invariant : GateInvariant state)
    (taken : Transition env event state after)
    (found : after.attempts.get? attemptId = some attempt) (held : attempt.grant.isSome = true) :
    (truthy attempt.grantId).isSome = true := by
  have effect := taken.attempt_effect invariant.keyed attemptId
  rw [found] at effect
  generalize earlier : state.attempts.get? attemptId = source at effect
  cases effect with
  | unchanged => exact invariant.named earlier held
  | queued => cases held
  | stepped step => exact step.named (invariant.named earlier) held

/-- What one event does to the approval filed under an identity. -/
inductive ApprovalEffect (event : OrchestrationEvent) (state after : TaskRuntimeProjection) :
    Option ApprovalRuntimeState → Option ApprovalRuntimeState → Prop
  | unchanged (approval : Option ApprovalRuntimeState) :
      ApprovalEffect event state after approval approval
  | requested {request : ApprovalRequestContract} (kind : event.type = .approvalRequested)
      (waits : ∀ attemptId, request.attemptId = some attemptId →
        ∃ attempt, state.attempts.get? attemptId = some attempt ∧ attempt.status = .queued ∧
          truthy attempt.grantId = none) :
      ApprovalEffect event state after none (some { request, status := .pending, resolution := none })
  | resolved {source target : ApprovalRuntimeState} (pending : source.status = .pending)
      (request : target.request = source.request)
      (rejected : target.status ≠ .approved → ∀ {attemptId attempt},
        source.request.attemptId = some attemptId →
        after.attempts.get? attemptId = some attempt →
        terminalAttemptStatus attempt.status = true) :
      ApprovalEffect event state after (some source) (some target)

theorem blockRejectedAttempt_approvals (state : TaskRuntimeProjection)
    (attemptId moment : String) :
    (blockRejectedAttempt state attemptId moment).approvals = state.approvals := by
  unfold blockRejectedAttempt
  split <;> rfl

theorem blockRejectedAttempt_terminal {state : TaskRuntimeProjection}
    {attemptId moment : String}
    (stored : (blockRejectedAttempt state attemptId moment).attempts.get? attemptId =
      some attempt)
    (keyed : ∀ {attemptId attempt}, state.attempts.get? attemptId = some attempt →
      attempt.attemptId = attemptId) : terminalAttemptStatus attempt.status = true := by
  unfold blockRejectedAttempt at stored
  split at stored
  next settled =>
    by_contra live
    rw [stored] at settled
    exact absurd settled (by simp [live])
  next live found =>
    obtain rfl := keyed (Option.filter_eq_some_iff.mp found).1
    rw [Record.get?_set_self] at stored
    obtain rfl := Option.some.inj stored
    rfl

/-- What a transition does to the approval filed under an identity. -/
theorem Transition.approval_effect (keyed : WellKeyed state)
    (taken : Transition env event state after) (approvalId : String) :
    ApprovalEffect event state after (state.approvals.get? approvalId)
      (after.approvals.get? approvalId) := by
  cases taken with
  | hostRecords | subscribed | objectiveCreated | objectiveUpdated | evidenceRecorded
  | objectiveMoved | taskReady | taskFailed
  | attemptQueued | agentRegistered | agentRetired | agentResumeRequested | attemptChanged
  | attemptGrantBound | attemptLeased | attemptCheckpointed | attemptSuspended | attemptResumed
  | attemptCancelled | attemptLeaseExpired | openTaskCancelled | openAttemptCancelled
  | notified => exact .unchanged _
  | objectiveResumed kind present refreshed | taskCreated kind owner valid fresh refreshed
  | taskVerified kind unbound present recorded refreshed
  | attemptVerified kind decoded present guarded refreshed
  | attemptFinished kind decoded guarded released refreshed =>
      obtain ⟨tasks, rfl, -⟩ := refreshReadyTasks_spec refreshed
      exact .unchanged _
  | @approvalRequested approval _ kind guarded fresh =>
      by_cases same : approvalId = approval.approvalId
      · subst same
        rw [fresh, Record.get?_set_self]
        refine .requested kind fun attemptId names => ?_
        obtain ⟨attempt, present, queued, ungranted, -⟩ :=
          (assertApprovalRequestTransition_spec guarded).1 attemptId names
        exact ⟨attempt, present, queued, ungranted⟩
      · rw [Record.get?_set_of_ne same]
        exact .unchanged _
  | @approvalResolved resolution approval _ kind guarded harmless =>
      obtain ⟨present, pending⟩ := assertApprovalResolutionTransition_spec guarded
      by_cases same : approvalId = resolution.approvalId
      · subst same
        rw [present, Record.get?_set_self]
        refine .resolved pending rfl fun unapproved attemptId attempt names => ?_
        have rejected : resolution.outcome = .rejected := by
          cases outcome : resolution.outcome with
          | rejected => rfl
          | approved => exact absurd (by rw [outcome]; rfl) unapproved
        rw [harmless rejected] at names
        cases names
      · rw [Record.get?_set_of_ne same]
        exact .unchanged _
  | @approvalRejected resolution approval _ rejectedId kind decoded guarded rejected target =>
      obtain ⟨present, pending⟩ := assertApprovalResolutionTransition_spec guarded
      rw [blockRejectedAttempt_approvals]
      by_cases same : approvalId = resolution.approvalId
      · subst same
        rw [present, Record.get?_set_self]
        refine .resolved pending rfl fun _ attemptId attempt names stored => ?_
        obtain rfl := Option.some.inj (target.symm.trans names)
        exact blockRejectedAttempt_terminal stored keyed.attempts
      · rw [Record.get?_set_of_ne same]
        exact .unchanged _

/-- A transition that passes no gate of an unsettled approval keeps the invariant. -/
theorem Transition.gateInvariant (invariant : GateInvariant state)
    (taken : Transition env event state after)
    (gate : event.type = .attemptGrantBound ∨ event.type = .attemptLeased →
      ∀ {approvalId approval}, state.approvals.get? approvalId = some approval →
        approval.status ≠ .approved → approval.request.attemptId ≠ some event.aggregateId) :
    GateInvariant after where
  keyed := taken.wellKeyed invariant.keyed
  named := taken.named invariant
  withheld {approvalId approval attemptId} found unapproved names := by
    have effect := taken.approval_effect invariant.keyed approvalId
    rw [found] at effect
    generalize earlier : state.approvals.get? approvalId = source at effect
    cases effect with
    | unchanged =>
        obtain ⟨attempt, present, withheld⟩ := invariant.withheld earlier unapproved names
        refine taken.withheld invariant.keyed (fun kind same => ?_) present withheld
        exact gate kind earlier unapproved (same ▸ names)
    | requested kind waits =>
        obtain ⟨attempt, present, queued, ungranted⟩ := waits attemptId names
        have held : attempt.grant = none := by
          by_contra granted
          have stated := invariant.named present (Option.isSome_iff_ne_none.mpr granted)
          rw [ungranted] at stated
          cases stated
        refine taken.withheld invariant.keyed ?_ present
          ⟨⟨held, ungranted⟩, Or.inr ⟨rfl, queued⟩⟩
        simp [kind]
    | @resolved source _ pending request rejected =>
        rw [request] at names
        obtain ⟨attempt, present, withheld⟩ :=
          invariant.withheld earlier (by simp [pending]) names
        obtain ⟨next, stored, ungranted, -⟩ := taken.withheld invariant.keyed
          (fun kind same => gate kind earlier (by simp [pending]) (same ▸ names)) present withheld
        exact ⟨next, stored, ungranted, Or.inl (rejected unapproved names stored)⟩

/-- Binding a grant or giving a lease settles the approval found first, and leaves the attempt
with what its unsettled approvals withhold. -/
theorem applyOrchestrationEvent_gate
    (applied : applyOrchestrationEvent env state event = .ok after)
    (kind : event.type = .attemptGrantBound ∨ event.type = .attemptLeased) :
    assertApprovalSettled state event.aggregateId = .ok () ∧
      after.approvals = state.approvals ∧
      ∃ attempt next, state.attempts.get? event.aggregateId = some attempt ∧
        terminalAttemptStatus attempt.status = false ∧
        after.attempts.get? event.aggregateId = some next ∧
        (next.grant ≠ none ∨ next.status = .leased) := by
  rcases kind with kind | kind
  · simp only [applyOrchestrationEvent, kind, applyAttemptGrantBound, bind_eq_ok,
      pure_eq_ok] at applied
    obtain ⟨attemptId, -, grant, -, attempt, guarded, rfl⟩ := applied
    obtain ⟨rfl, present, status, -, settled⟩ := assertAttemptGrantTransition_spec guarded
    refine ⟨settled, rfl, attempt, _, present, ?_, Record.get?_set_self _ _ _, Or.inl (by simp)⟩
    rcases status with same | same | same <;> rw [same] <;> rfl
  · simp only [applyOrchestrationEvent, kind, applyAttemptLeased, bind_eq_ok, pure_eq_ok,
      requireTask_eq_ok, Prod.exists] at applied
    obtain ⟨lease, decoded, attempt, agent, guarded, task, owner, rfl⟩ := applied
    have admitted := assertAttemptLeaseTransition_spec guarded
    rw [admitted.aggregate]
    exact ⟨admitted.settled, rfl, attempt, _, admitted.present, by rw [admitted.queued]; rfl,
      Record.get?_set_self _ _ _, Or.inr rfl⟩

/-- When no awaited approval stands behind an approved one, the gate settles every approval. -/
theorem GateInvariant.gate (invariant : GateInvariant state)
    (applied : applyOrchestrationEvent env state event = .ok after)
    (harmless : ¬PassesAwaitedApproval state event)
    (kind : event.type = .attemptGrantBound ∨ event.type = .attemptLeased)
    {approvalId : String} {approval : ApprovalRuntimeState}
    (found : state.approvals.get? approvalId = some approval)
    (unapproved : approval.status ≠ .approved) :
    approval.request.attemptId ≠ some event.aggregateId := by
  intro names
  obtain ⟨settled, -, attempt, -, present, live, -⟩ := applyOrchestrationEvent_gate applied kind
  have listed : approval ∈ state.approvals.values := Record.mem_values.mpr ⟨approvalId, found⟩
  cases status : approval.status with
  | approved => exact unapproved status
  | pending =>
      cases first : approvalForAttemptInProjection state event.aggregateId with
      | none =>
          have absent := List.find?_eq_none.mp first approval listed
          simp [names] at absent
      | some settledFirst =>
          exact harmless ⟨kind, ⟨settledFirst, first, assertApprovalSettled_spec settled first⟩,
            approval, listed, names, status⟩
  | rejected =>
      obtain ⟨withheld, stored, -, ended⟩ := invariant.withheld found unapproved names
      obtain rfl := Option.some.inj (stored.symm.trans present)
      rcases ended with terminal | ⟨pending, -⟩
      · rw [live] at terminal
        cases terminal
      · rw [status] at pending
        cases pending

theorem Applied.gateInvariant (applied : Applied env state event after)
    (harmless : ¬PassesAwaitedApproval state event) (invariant : GateInvariant state) :
    GateInvariant after := by
  have ⟨_, next, reduced, _⟩ := applied
  refine applied.preserves GateInvariant
    (fun state event => event.type = .attemptGrantBound ∨
      event.type = .attemptLeased → ∀ {approvalId approval},
        state.approvals.get? approvalId = some approval → approval.status ≠ .approved →
        approval.request.attemptId ≠ some event.aggregateId)
    (fun held => ⟨⟨held.keyed.attempts, held.keyed.tasks⟩, held.withheld, held.named⟩) ?_
    (invariant.gate reduced harmless) invariant
  intro earlier later met held taken
  refine taken.gateInvariant held fun kind => met ?_ kind
  rcases kind with kind | kind <;> simp [OrchestrationEventType.isCompound,
    OrchestrationEventType.closesObjective, OrchestrationEventType.createsTask, kind]

theorem Applied.not_approvalsRespected (applied : Applied env state event after)
    (passes : PassesAwaitedApproval state event) : ¬ApprovalsRespected after := by
  obtain ⟨kind, -, awaited, listed, names, pending⟩ := passes
  obtain ⟨-, passed, reduced, rfl⟩ := applied
  obtain ⟨-, kept, -, next, -, -, stored, executes⟩ := applyOrchestrationEvent_gate reduced kind
  obtain ⟨approvalId, found⟩ := Record.mem_values.mp listed
  intro respected
  obtain ⟨⟨ungranted, -⟩, unleased, -⟩ := respected approvalId awaited _ next
    (by rw [← found]; exact congrArg (Record.get? · approvalId) kept) (Or.inl pending) names stored
  rcases executes with granted | leased
  · exact granted ungranted
  · exact unleased leased

/-- Unsettled approvals withhold execution in every projection of an accepted log exactly when no
event of the log passes an awaited approval behind an approved one. -/
theorem approvals_respected_iff_none_passed
    {history : List (TaskRuntimeProjection × OrchestrationEvent)}
    {projection : TaskRuntimeProjection} (log : AcceptedLog env history projection) :
    ((∀ entry ∈ history, ApprovalsRespected entry.1) ∧ ApprovalsRespected projection) ↔
      ∀ entry ∈ history, ¬PassesAwaitedApproval entry.1 entry.2 :=
  Execution.always_iff _ _ _ gateInvariant_emptyProjection GateInvariant.respected
    (fun held applied harmless => applied.gateInvariant harmless held)
    (fun _ applied passes => applied.not_approvalsRespected passes) log

/-- Calls that grant an attempt while its second approval is pending. -/
def awaitedGrantCalls : List Call :=
  [givenCall "1" (givenObjective "objective" []), givenCall "2" (givenTask "objective" "task" []),
    givenCall "3" (givenAttempt "task"),
    givenCall "4" (givenApproval "first" "objective" "task" "attempt-3"),
    givenCall "5" (.resolveApproval "first" .approved "granted"),
    givenCall "6" (givenApproval "second" "objective" "task" "attempt-3"),
    givenCall "7" (givenGrant "objective" "task" "attempt-3")]

theorem awaitedGrantCalls_run : ∃ projection run,
    RuntimeRun givenEnvironment run projection ∧ ¬ApprovalsRespected projection := by
  obtain ⟨projection, run, reached, granted⟩ := runtimeRun_of_calls givenEnvironment
    awaitedGrantCalls
    (fun projection =>
      (projection.approvals.get? "second").any (fun approval =>
        approval.status = .pending ∧ approval.request.attemptId = some "attempt-3") &&
      (projection.attempts.get? "attempt-3").any (fun attempt => attempt.grant.isSome))
    (by decide +kernel)
  refine ⟨projection, run, reached, fun respected => ?_⟩
  simp only [Bool.and_eq_true, Option.any_eq_true, decide_eq_true_eq] at granted
  obtain ⟨⟨approval, requested, pending, named⟩, attempt, present, granted⟩ := granted
  obtain ⟨⟨ungranted, -⟩, -⟩ := respected _ _ _ _ requested (Or.inl pending) named present
  simp [ungranted] at granted

/-- A command can grant an attempt that awaits an approval. -/
theorem attempt_granted_while_awaiting_approval :
    ¬∀ env run projection, RuntimeRun env run projection → ApprovalsRespected projection := by
  intro respected
  obtain ⟨projection, run, reached, ignored⟩ := awaitedGrantCalls_run
  exact ignored (respected _ _ _ reached)

/-- The log of the given calls holds the grant that passes the awaited approval. -/
theorem awaited_approval_was_passed : ∃ history projection,
    AcceptedLog givenEnvironment history projection ∧
      ∃ entry ∈ history, PassesAwaitedApproval entry.1 entry.2 := by
  obtain ⟨projection, run, reached, ignored⟩ := awaitedGrantCalls_run
  obtain ⟨history, log, -⟩ := reached.log
  refine ⟨history, projection, log, ?_⟩
  by_contra harmless
  refine ignored ((approvals_respected_iff_none_passed log).mpr ?_).2
  exact fun entry member passes => harmless ⟨entry, member, passes⟩

end PiAdaptative.TaskRuntime
