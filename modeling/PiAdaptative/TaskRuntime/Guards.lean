import PiAdaptative.TaskRuntime.Transitions

/-!
# What the guards establish

One lemma for each guard: the facts a successful check leaves to the transition after it.
-/

namespace PiAdaptative.TaskRuntime

variable {state : TaskRuntimeProjection} {event : OrchestrationEvent} {platform : Platform}
variable {attempt : AttemptRuntimeState}

variable {objective : ObjectiveRuntimeState}

@[simp]
theorem requireObjective_eq_ok {objectiveId : String} :
    requireObjective state objectiveId = .ok objective ↔
      state.objectives.get? objectiveId = some objective :=
  orThrow_eq_ok

@[simp]
theorem requireAttempt_eq_ok {attemptId : String} :
    requireAttempt state attemptId = .ok attempt ↔ state.attempts.get? attemptId = some attempt :=
  orThrow_eq_ok

variable {task : TaskRuntimeState}

@[simp]
theorem requireTask_eq_ok {taskId : String} :
    requireTask state taskId = .ok task ↔ state.tasks.get? taskId = some task :=
  orThrow_eq_ok

variable {agent : AgentBindingContract} {agentId : String}

@[simp]
theorem requireAgent_eq_ok :
    requireAgent state agentId = .ok agent ↔ state.agents.get? agentId = some agent :=
  orThrow_eq_ok

variable {value : Unit}

@[simp]
theorem assertEventAggregateId_eq_ok {expectedId label : String} :
    assertEventAggregateId event expectedId label = .ok value ↔
      event.aggregateId = expectedId := by
  simp [assertEventAggregateId]

@[simp]
theorem assertAgentNotRetired_eq_ok {transition : String} :
    assertAgentNotRetired agent transition = .ok value ↔ agent.status ≠ .retired := by
  simp [assertAgentNotRetired]

variable {aggregateId : String}

theorem assertObjectiveUpdateTransition_spec {objective : ObjectiveContract}
    {current : ObjectiveRuntimeState}
    (guarded : assertObjectiveUpdateTransition state aggregateId objective = .ok current) :
    state.objectives.get? aggregateId = some current ∧
      objective.status = current.objective.status := by
  simp only [exists_unit, assertObjectiveUpdateTransition, bind_eq_ok, pure_eq_ok, throwIf_eq_ok,
    requireObjective_eq_ok] at guarded
  obtain ⟨found, present, -, unchanged, -, rfl⟩ := guarded
  exact ⟨present, not_not.mp fun differs => unchanged (Or.inl differs)⟩

theorem assertObjectiveEvidenceTransition_spec {objectiveId : String}
    {evidence : EvidenceContract}
    (guarded : assertObjectiveEvidenceTransition state objectiveId evidence = .ok objective) :
    state.objectives.get? objectiveId = some objective := by
  simp only [exists_unit, assertObjectiveEvidenceTransition, bind_eq_ok, pure_eq_ok, throwIf_eq_ok,
    requireObjective_eq_ok] at guarded
  obtain ⟨found, present, -, rfl⟩ := guarded
  exact present

/-- An agent that retires is idle, and no live attempt is meant for it. -/
theorem assertAgentRetirementEligible_spec
    (eligible : assertAgentRetirementEligible state agentId = .ok agent)
    (unretired : agent.status ≠ .retired) :
    state.agents.get? agentId = some agent ∧ agent.status = .registered ∧
      agent.activeAttemptId = none ∧
      findLiveDescendant state.agents agentId state.agents.values = .ok none := by
  simp only [assertAgentRetirementEligible, bind_eq_ok, requireAgent_eq_ok] at eligible
  obtain ⟨found, present, rest⟩ := eligible
  split at rest
  next retired =>
    obtain rfl := pure_eq_ok.mp rest
    exact absurd retired unretired
  · simp only [bind_eq_ok, exists_unit, throwIf_eq_ok] at rest
    obtain ⟨registered, idle, rest⟩ := rest
    split at rest
    · cases rest
    · simp only [bind_eq_ok] at rest
      obtain ⟨descendant, searched, rest⟩ := rest
      split at rest
      · cases rest
      · obtain rfl := pure_eq_ok.mp rest
        exact ⟨present, not_not.mp registered, by simpa using idle, searched⟩

theorem assertTaskFailureTransition_spec {aggregateId taskId reasonCode : String}
    (guarded : assertTaskFailureTransition state aggregateId taskId reasonCode = .ok task) :
    state.tasks.get? taskId = some task ∧
      (task.task.status = .pending ∨ task.task.status = .ready ∨ task.task.status = .blocked) ∧
      activeTaskAttempt state.attempts task = none := by
  simp only [exists_unit, assertTaskFailureTransition, bind_eq_ok, throwIf_eq_ok, requireTask_eq_ok] at guarded
  obtain ⟨-, found, present, status, rest⟩ := guarded
  split at rest
  · cases rest
  next idle =>
    simp only [bind_eq_ok, pure_eq_ok] at rest
    grind

/-- What a verification record states about its verifier. -/
structure RecordedReview (tasks : Record TaskRuntimeState)
    (attempts : Record AttemptRuntimeState) (taskId : String)
    (verification : VerificationRecord) : Prop where
  /-- The verifier task is about the subject task and the reviewer is a settled attempt of it. -/
  review : ∃ verifier reviewer, tasks.get? verification.verifierTaskId = some verifier ∧
    attempts.get? verification.verifierAttemptId = some reviewer ∧
    verifier.task.verificationOfTaskId = some taskId ∧
    reviewer.taskId = verifier.task.taskId ∧ terminalAttemptStatus reviewer.status = true

theorem assertVerificationRecord_spec {tasks : Record TaskRuntimeState}
    {attempts : Record AttemptRuntimeState} {taskId : String} {verification : VerificationRecord}
    {subjectAttemptId : Option String}
    (guarded : assertVerificationRecord tasks attempts taskId verification subjectAttemptId =
      .ok value) :
    RecordedReview tasks attempts taskId verification ∧
      (subjectAttemptId.isSome = true →
        ∃ verifier subject, tasks.get? verification.verifierTaskId = some verifier ∧
          verificationSubjectAttempt tasks attempts verifier.task = some subject ∧
          some subject.attemptId = subjectAttemptId) := by
  unfold assertVerificationRecord at guarded
  split at guarded
  next verifier reviewer foundVerifier foundReviewer =>
    simp only [exists_unit, bind_eq_ok, throwIf_eq_ok] at guarded
    obtain ⟨related, identified, -⟩ := guarded
    refine ⟨⟨verifier, reviewer, foundVerifier, foundReviewer, ?_⟩, ?_⟩
    · grind
    · intro stated
      have same : (verificationSubjectAttempt tasks attempts verifier.task).map
          AttemptRuntimeState.attemptId = subjectAttemptId := by
        by_contra differs
        exact identified ⟨stated, differs⟩
      cases subject : verificationSubjectAttempt tasks attempts verifier.task with
      | none =>
          rw [subject] at same
          subst same
          simp at stated
      | some found =>
          rw [subject] at same
          exact ⟨verifier, found, foundVerifier, subject, same⟩
  · cases guarded

theorem assertVerificationTransition_spec {args : VerificationTransitionInput}
    {subject : TaskRuntimeState}
    (guarded : assertVerificationTransition state aggregateId args = .ok (subject, attempt)) :
    state.tasks.get? args.taskId = some subject ∧
      state.attempts.get? args.subjectAttemptId = some attempt ∧
      attempt.taskId = args.taskId ∧ requiresVerification attempt = true ∧
      (∃ verifier found, state.tasks.get? args.verifierTaskId = some verifier ∧
        verifier.task.verificationOfTaskId = some args.taskId ∧
        verificationSubjectAttempt state.tasks state.attempts verifier.task = some found ∧
        found.attemptId = args.subjectAttemptId) ∧
      ∀ existing, attemptVerification state.tasks state.attempts attempt = some existing →
        existing.verifierTaskId = args.verifierTaskId ∧
          existing.verifierAttemptId = args.verifierAttemptId ∧
          existing.verdict = args.verdict ∧ existing.reasonCode = args.reasonCode := by
  simp only [exists_unit, assertVerificationTransition, bind_eq_ok, pure_eq_ok, throwIf_eq_ok, orThrow_eq_ok,
    Option.filter_eq_some_iff, decide_eq_true_eq, Prod.mk.injEq] at guarded
  obtain ⟨-, foundSubject, presentSubject, foundAttempt, ⟨presentAttempt, owned, asks⟩, -, -,
    recorded, agreeing, rfl, rfl⟩ := guarded
  obtain ⟨⟨verifier, reviewer, foundVerifier, -, about, -⟩, identified⟩ :=
    assertVerificationRecord_spec recorded
  obtain ⟨verifier', subject', foundVerifier', subjectOf, same⟩ := identified rfl
  obtain rfl := Option.some.inj (foundVerifier.symm.trans foundVerifier')
  refine ⟨presentSubject, presentAttempt, owned, asks,
    ⟨verifier, subject', foundVerifier, about, subjectOf, Option.some.inj same⟩, ?_⟩
  intro existing found
  rw [found] at agreeing
  simpa [not_or] using agreeing

variable {fencingToken : Rat} {lease : AttemptLease}

@[simp]
theorem currentLease_eq_ok {leaseId : String} :
    currentLease attempt leaseId fencingToken = .ok lease ↔
      attempt.lease = some lease ∧ lease.hasToken leaseId fencingToken = true := by
  simp [currentLease, Option.filter_eq_some_iff]

theorem assertAttemptLeaseMatches_spec {leaseId occurredAt : String}
    (guarded : assertAttemptLeaseMatches platform attempt leaseId fencingToken occurredAt =
      .ok lease) :
    attempt.lease = some lease ∧ lease.hasToken leaseId fencingToken = true := by
  simp only [exists_unit, assertAttemptLeaseMatches, bind_eq_ok, pure_eq_ok, currentLease_eq_ok] at guarded
  obtain ⟨current, held, -, rfl⟩ := guarded
  exact held

theorem assertRunningAttemptLease_spec {attemptId leaseId occurredAt : String}
    (guarded : assertRunningAttemptLease platform state attemptId leaseId fencingToken
      occurredAt = .ok attempt) :
    state.attempts.get? attemptId = some attempt ∧ attempt.status = .running ∧
      ∃ lease, attempt.lease = some lease ∧ lease.hasToken leaseId fencingToken = true := by
  simp only [exists_unit, assertRunningAttemptLease, bind_eq_ok, pure_eq_ok, throwIf_eq_ok,
    requireAttempt_eq_ok] at guarded
  obtain ⟨found, present, running, lease, current, rfl⟩ := guarded
  exact ⟨present, not_not.mp running, lease, assertAttemptLeaseMatches_spec current⟩

theorem assertAttemptStartTransition_spec {aggregateId attemptId leaseId occurredAt : String}
    (guarded : assertAttemptStartTransition platform state aggregateId attemptId leaseId
      fencingToken occurredAt = .ok attempt) :
    aggregateId = attemptId ∧ state.attempts.get? attemptId = some attempt ∧
      attempt.status = .leased ∧
      ∃ lease, attempt.lease = some lease ∧ lease.hasToken leaseId fencingToken = true := by
  simp only [exists_unit, assertAttemptStartTransition, bind_eq_ok, pure_eq_ok, throwIf_eq_ok,
    requireAttempt_eq_ok] at guarded
  obtain ⟨same, found, present, leased, lease, current, -, rfl⟩ := guarded
  exact ⟨not_not.mp same, present, not_not.mp leased, lease,
    assertAttemptLeaseMatches_spec current⟩

theorem assertAttemptLeaseRenewalTransition_spec
    {aggregateId attemptId leaseId expiresAt occurredAt : String}
    (guarded : assertAttemptLeaseRenewalTransition platform state aggregateId attemptId leaseId
      fencingToken expiresAt occurredAt = .ok (attempt, lease)) :
    aggregateId = attemptId ∧ state.attempts.get? attemptId = some attempt ∧
      (attempt.status = .leased ∨ attempt.status = .running) ∧
      attempt.lease = some lease ∧ lease.hasToken leaseId fencingToken = true := by
  simp only [exists_unit, assertAttemptLeaseRenewalTransition, bind_eq_ok, pure_eq_ok, throwIf_eq_ok,
    requireAttempt_eq_ok, Prod.mk.injEq] at guarded
  obtain ⟨same, found, present, status, current, matching, -, -, rfl, rfl⟩ := guarded
  exact ⟨not_not.mp same, present, by grind, assertAttemptLeaseMatches_spec matching⟩

theorem assertAttemptGrantTransition_spec {aggregateId attemptId : String}
    {grant : ExecutionGrant}
    (guarded : assertAttemptGrantTransition state aggregateId attemptId grant = .ok attempt) :
    aggregateId = attemptId ∧ state.attempts.get? attemptId = some attempt ∧
      (attempt.status = .queued ∨ attempt.status = .leased ∨ attempt.status = .running) ∧
      trim grant.grantId ≠ "" ∧ assertApprovalSettled state attemptId = .ok () := by
  simp only [exists_unit, assertAttemptGrantTransition, bind_eq_ok, pure_eq_ok, throwIf_eq_ok,
    requireAttempt_eq_ok] at guarded
  obtain ⟨same, found, present, status, target, settled, -, -, rfl⟩ := guarded
  refine ⟨not_not.mp same, present, by grind, ?_, settled⟩
  intro blank
  apply target
  simp [blank]

/-- What a lease transition establishes. -/
structure LeaseAdmitted (state : TaskRuntimeProjection) (aggregateId : String)
    (lease : AttemptLease) (agentId : Option String) (attempt : AttemptRuntimeState)
    (agent : Option AgentBindingContract) : Prop where
  aggregate : aggregateId = lease.attemptId
  present : state.attempts.get? lease.attemptId = some attempt
  queued : attempt.status = .queued
  settled : assertApprovalSettled state lease.attemptId = .ok ()
  granted : (truthy attempt.grantId).isSome = true
  fence : lease.fencingToken = (attempt.lease.map AttemptLease.fencingToken).getD 0 + 1
  idle : match truthy agentId with
    | none => agent = none
    | some name => ∃ found, agent = some found ∧ state.agents.get? name = some found ∧
        found.status = .registered

theorem assertLeasingAgent_spec (guarded : assertLeasingAgent state attempt agentId = .ok agent) :
    state.agents.get? agentId = some agent ∧ agent.status = .registered := by
  simp only [exists_unit, assertLeasingAgent, bind_eq_ok, pure_eq_ok, throwIf_eq_ok,
    requireAgent_eq_ok] at guarded
  obtain ⟨found, present, -, idle, -, rfl⟩ := guarded
  exact ⟨present, not_not.mp idle⟩

theorem assertAttemptLeaseTransition_spec {aggregateId occurredAt : String} {agentId : Option String} {agent : Option AgentBindingContract}
    (guarded : assertAttemptLeaseTransition platform state aggregateId lease agentId
      occurredAt = .ok (attempt, agent)) :
    LeaseAdmitted state aggregateId lease agentId attempt agent := by
  simp only [exists_unit, assertAttemptLeaseTransition, bind_eq_ok, pure_eq_ok, throwIf_eq_ok,
    requireAttempt_eq_ok, Prod.mk.injEq] at guarded
  obtain ⟨same, found, present, queued, -, settled, granted, fence, -, -, leasing, idle, rfl, rfl⟩ :=
    guarded
  refine ⟨not_not.mp same, present, not_not.mp queued, settled, ?_, not_not.mp fence, ?_⟩
  · simpa [Option.isSome_iff_ne_none] using granted
  · cases named : truthy agentId with
    | none =>
        rw [named] at idle
        simpa [optionalOutcome, eq_comm] using idle
    | some name =>
        rw [named] at idle
        simp only [optionalOutcome, bind_eq_ok, pure_eq_ok, Option.getD_some] at idle
        obtain ⟨agent, checked, rfl⟩ := idle
        exact ⟨agent, rfl, assertLeasingAgent_spec checked⟩

structure FinishAdmitted (state : TaskRuntimeProjection) (aggregateId : String)
    (result : WorkerResultContract) (attempt : AttemptRuntimeState) (task : TaskRuntimeState) :
    Prop where
  aggregate : aggregateId = result.attemptId
  present : state.attempts.get? result.attemptId = some attempt
  unfinished : attempt.status = .running ∨ attempt.status = .leased
  current : ∃ lease, attempt.lease = some lease ∧
    lease.hasToken result.leaseId result.fencingToken = true
  owned : attempt.taskId = result.taskId
  owner : state.tasks.get? attempt.taskId = some task

theorem assertAttemptFinishTransition_spec {aggregateId occurredAt : String}
    {result : WorkerResultContract}
    (guarded : assertAttemptFinishTransition platform state aggregateId result occurredAt =
      .ok (attempt, task)) :
    FinishAdmitted state aggregateId result attempt task := by
  simp only [exists_unit, assertAttemptFinishTransition, bind_eq_ok, pure_eq_ok, throwIf_eq_ok, orThrow_eq_ok,
    requireAttempt_eq_ok, Option.filter_eq_some_iff, Prod.mk.injEq] at guarded
  obtain ⟨-, same, found, present, status, lease, matching, owned, owner, ⟨held, -⟩, -, rfl,
    rfl⟩ := guarded
  exact ⟨not_not.mp same, present, by grind, ⟨lease, assertAttemptLeaseMatches_spec matching⟩,
    not_not.mp owned, held⟩

variable {approval : ApprovalRuntimeState}

/-- A settled approval is neither pending nor rejected. -/
theorem assertApprovalSettled_spec {attemptId : String}
    (guarded : assertApprovalSettled state attemptId = .ok ())
    (found : approvalForAttemptInProjection state attemptId = some approval) :
    approval.status = .approved := by
  simp only [exists_unit, assertApprovalSettled, found, bind_eq_ok, throwIf_eq_ok] at guarded
  cases status : approval.status <;> simp_all

/-- What an approval request establishes about the attempt it names. -/
theorem assertApprovalRequestTransition_spec {approval : ApprovalRequestContract}
    (guarded : assertApprovalRequestTransition state aggregateId approval = .ok value) :
    (∀ attemptId, approval.attemptId = some attemptId →
      ∃ attempt, state.attempts.get? attemptId = some attempt ∧ attempt.status = .queued ∧
        truthy attempt.grantId = none ∧ some attempt.taskId = approval.taskId ∧
        ∃ task, state.tasks.get? attempt.taskId = some task ∧
          task.task.objectiveId = approval.objectiveId) ∧
      ∀ candidate ∈ state.approvals.values, candidate.status = .pending →
        candidate.request.objectiveId = approval.objectiveId →
        candidate.request.taskId = approval.taskId →
        candidate.request.attemptId ≠ approval.attemptId := by
  simp only [exists_unit, assertApprovalRequestTransition, bind_eq_ok, throwIf_eq_ok,
    requireObjective_eq_ok] at guarded
  obtain ⟨-, objective, -, -, -, listed, rest⟩ := guarded
  have alone : (state.approvals.values.find? fun candidate =>
        candidate.status = .pending ∧ candidate.request.objectiveId = approval.objectiveId ∧
          candidate.request.taskId = approval.taskId ∧
          candidate.request.attemptId = approval.attemptId) = none →
      ∀ candidate ∈ state.approvals.values, candidate.status = .pending →
        candidate.request.objectiveId = approval.objectiveId →
        candidate.request.taskId = approval.taskId →
        candidate.request.attemptId ≠ approval.attemptId := by
    intro absent candidate member pending sameObjective sameTask sameAttempt
    exact List.find?_eq_none.mp absent candidate member
      (by simp [pending, sameObjective, sameTask, sameAttempt])
  cases named : approval.attemptId with
  | none =>
      rw [named] at rest alone
      simp only [exists_unit, bind_eq_ok] at rest
      obtain ⟨-, free⟩ := rest
      split at free
      next absent => exact ⟨by simp, alone absent⟩
      next => cases free
  | some attemptId =>
      rw [named] at rest alone
      simp only [exists_unit, bind_eq_ok, throwIf_eq_ok, orThrow_eq_ok,
        Option.filter_eq_some_iff, decide_eq_true_eq, not_or, not_not] at rest
      obtain ⟨attempt, ⟨present, owned⟩, ⟨waiting, ungranted⟩, free⟩ := rest
      split at free
      next absent =>
        refine ⟨?_, alone absent⟩
        rintro _ ⟨⟩
        refine ⟨attempt, present, waiting, by simpa using ungranted, owned, ?_⟩
        rw [← owned] at listed
        simpa [Option.any_eq_true] using listed
      next => cases free

theorem assertApprovalResolutionTransition_spec {resolution : ApprovalResolutionContract}
    (guarded : assertApprovalResolutionTransition state aggregateId resolution = .ok approval) :
    state.approvals.get? resolution.approvalId = some approval ∧ approval.status = .pending := by
  simp only [exists_unit, assertApprovalResolutionTransition, bind_eq_ok, pure_eq_ok, throwIf_eq_ok,
    orThrow_eq_ok] at guarded
  obtain ⟨found, present, -, pending, rfl⟩ := guarded
  exact ⟨present, not_not.mp pending⟩

end PiAdaptative.TaskRuntime
