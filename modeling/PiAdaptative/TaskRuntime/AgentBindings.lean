import PiAdaptative.TaskRuntime.TaskSteps
import PiAdaptative.TaskRuntime.Calls

/-!
# Agent bindings

An agent that is active, suspended or resuming holds exactly one attempt, and that attempt names
the agent.  Every transition keeps the two sides in agreement except one: rejecting an approval
blocks the attempt it names without releasing the agent that works on it.
-/

namespace PiAdaptative.TaskRuntime

variable {env : Environment} {event : OrchestrationEvent}
variable {state after : TaskRuntimeProjection}
variable {agents : Record AgentBindingContract} {attempts : Record AttemptRuntimeState}

/-- Whether an agent of this status works on an attempt. -/
def AgentBindingStatus.isBusy (status : AgentBindingStatus) : Prop :=
  status = .active ∨ status = .suspended ∨ status = .resuming

/-- Whether an attempt of one status fits an agent of the other. -/
def FitsAgent (agent : AgentBindingStatus) (attempt : AttemptStatus) : Prop :=
  (agent = .active → attempt = .leased ∨ attempt = .running) ∧
    (agent = .suspended ∨ agent = .resuming → attempt = .suspended)

/-- Agents and attempts agree about who works on what. -/
structure BindingsAgree (agents : Record AgentBindingContract)
    (attempts : Record AttemptRuntimeState) : Prop where
  /-- An agent holds an attempt exactly while it is active, suspended or resuming. -/
  busy : ∀ {agentId agent}, agents.get? agentId = some agent →
    (agent.activeAttemptId.isSome = true ↔ agent.status.isBusy)
  /-- The held attempt exists, names the agent and has a status that fits it. -/
  held : ∀ {agentId agent attemptId}, agents.get? agentId = some agent →
    agent.activeAttemptId = some attemptId →
    ∃ attempt, attempts.get? attemptId = some attempt ∧ attempt.agentId = some agentId ∧
      FitsAgent agent.status attempt.status
  /-- A bound attempt that is not terminal is held by the agent it names. -/
  bound : ∀ {attemptId attempt agentId}, attempts.get? attemptId = some attempt →
    attempt.agentId = some agentId → terminalAttemptStatus attempt.status = false →
    ∃ agent, agents.get? agentId = some agent ∧ agent.activeAttemptId = some attemptId

variable {attempt changed : AttemptRuntimeState}

/-- The binding of an attempt and of an agent that are changed together. -/
theorem BindingsAgree.rebind {agentId attemptId : String} {agent next : AgentBindingContract}
    (agree : BindingsAgree agents attempts)
    (presentAttempt : attempts.get? attemptId = some attempt)
    (owner : attempt.agentId = none ∨ attempt.agentId = some agentId)
    (presentAgent : agents.get? agentId = some agent)
    (free : agent.activeAttemptId = none ∨ agent.activeAttemptId = some attemptId)
    (busy : next.status.isBusy) (holds : next.activeAttemptId = some attemptId)
    (names : changed.agentId = some agentId) (fits : FitsAgent next.status changed.status) :
    BindingsAgree (agents.set agentId next) (attempts.set attemptId changed) where
  busy {otherId other} found := by
    rw [Record.get?_set] at found
    split at found
    · obtain rfl := Option.some.inj found
      simp [holds, busy]
    · exact agree.busy found
  held {otherId other heldId} found works := by
    rw [Record.get?_set] at found
    split at found
    next same =>
      obtain rfl := Option.some.inj found
      obtain rfl := Option.some.inj (holds.symm.trans works)
      exact ⟨changed, Record.get?_set_self _ _ _, by rw [names, same], fits⟩
    next differs =>
      obtain ⟨worked, present, named, fitting⟩ := agree.held found works
      have apart : heldId ≠ attemptId := by
        rintro rfl
        obtain rfl := Option.some.inj (present.symm.trans presentAttempt)
        rcases owner with unowned | owned
        · rw [unowned] at named
          cases named
        · exact differs (Option.some.inj (named.symm.trans owned))
      exact ⟨worked, by rw [Record.get?_set_of_ne apart, present], named, fitting⟩
  bound {boundId bounded ownerId} found named live := by
    rw [Record.get?_set] at found
    split at found
    next same =>
      obtain rfl := Option.some.inj found
      obtain rfl := Option.some.inj (names.symm.trans named)
      exact ⟨next, Record.get?_set_self _ _ _, by rw [holds, same]⟩
    next differs =>
      obtain ⟨holder, present, works⟩ := agree.bound found named live
      have apart : ownerId ≠ agentId := by
        rintro rfl
        obtain rfl := Option.some.inj (present.symm.trans presentAgent)
        rcases free with unheld | held
        · rw [unheld] at works
          cases works
        · exact differs (Option.some.inj (works.symm.trans held))
      exact ⟨holder, by rw [Record.get?_set_of_ne apart, present], works⟩

variable {attemptId : String}

section

variable (agree : BindingsAgree agents attempts)
include agree

/-- Changing an attempt without its agent, to a status that still fits. -/
theorem BindingsAgree.set_attempt
    (present : attempts.get? attemptId = some attempt)
    (names : changed.agentId = attempt.agentId)
    (fits : attempt.agentId = none ∨ changed.status = attempt.status ∨
      attempt.status = .leased ∧ changed.status = .running) :
    BindingsAgree agents (attempts.set attemptId changed) where
  busy := agree.busy
  held {agentId agent heldId} found works := by
    obtain ⟨worked, held, named, fitting⟩ := agree.held found works
    by_cases same : heldId = attemptId
    · subst same
      obtain rfl := Option.some.inj (held.symm.trans present)
      refine ⟨changed, Record.get?_set_self _ _ _, names.trans named, ?_⟩
      rcases fits with unowned | same | ⟨leased, running⟩
      · rw [unowned] at named
        cases named
      · rwa [same]
      · refine ⟨fun _ => Or.inr running, fun waiting => ?_⟩
        rw [fitting.2 waiting] at leased
        cases leased
    · exact ⟨worked, by rw [Record.get?_set_of_ne same, held], named, fitting⟩
  bound {boundId bounded ownerId} found named live := by
    rw [Record.get?_set] at found
    split at found
    next same =>
      obtain rfl := Option.some.inj found
      subst same
      have owned := names.symm.trans named
      refine agree.bound present owned ?_
      rcases fits with unowned | same | ⟨leased, -⟩
      · rw [unowned] at owned
        cases owned
      · rwa [← same]
      · rw [leased]
        rfl
    · exact agree.bound found named live

theorem BindingsAgree.add_attempt {added : AttemptRuntimeState}
    (fresh : attempts.get? attemptId = none) (unowned : added.agentId = none) :
    BindingsAgree agents (attempts.set attemptId added) where
  busy := agree.busy
  held {agentId agent heldId} found works := by
    obtain ⟨worked, held, named, fitting⟩ := agree.held found works
    have apart : heldId ≠ attemptId := by
      rintro rfl
      rw [fresh] at held
      cases held
    exact ⟨worked, by rw [Record.get?_set_of_ne apart, held], named, fitting⟩
  bound {boundId bounded ownerId} found named live := by
    rw [Record.get?_set] at found
    split at found
    · obtain rfl := Option.some.inj found
      rw [unowned] at named
      cases named
    · exact agree.bound found named live

/-- Changing an agent without its attempt, to a status that the attempt still fits. -/
theorem BindingsAgree.set_agent {agentId : String} {agent changed : AgentBindingContract}
    (present : agents.get? agentId = some agent)
    (works : changed.activeAttemptId = agent.activeAttemptId)
    (busy : changed.status.isBusy ↔ agent.status.isBusy)
    (fits : ∀ status, FitsAgent agent.status status → FitsAgent changed.status status) :
    BindingsAgree (agents.set agentId changed) attempts where
  busy {otherId other} found := by
    rw [Record.get?_set] at found
    split at found
    · obtain rfl := Option.some.inj found
      rw [works, busy]
      exact agree.busy present
    · exact agree.busy found
  held {otherId other heldId} found holds := by
    rw [Record.get?_set] at found
    split at found
    next same =>
      obtain rfl := Option.some.inj found
      obtain ⟨worked, held, named, fitting⟩ := agree.held present (works ▸ holds)
      exact ⟨worked, held, same ▸ named, fits _ fitting⟩
    · exact agree.held found holds
  bound {boundId bounded ownerId} found named live := by
    obtain ⟨holder, held, holds⟩ := agree.bound found named live
    by_cases same : ownerId = agentId
    · subst same
      obtain rfl := Option.some.inj (held.symm.trans present)
      exact ⟨changed, Record.get?_set_self _ _ _, works.trans holds⟩
    · exact ⟨holder, by rw [Record.get?_set_of_ne same, held], holds⟩

theorem BindingsAgree.add_agent {agentId : String} {added : AgentBindingContract}
    (fresh : agents.get? agentId = none) (idle : added.activeAttemptId = none)
    (status : ¬added.status.isBusy) :
    BindingsAgree (agents.set agentId added) attempts where
  busy {otherId other} found := by
    rw [Record.get?_set] at found
    split at found
    · obtain rfl := Option.some.inj found
      simp [idle, status]
    · exact agree.busy found
  held {otherId other heldId} found holds := by
    rw [Record.get?_set] at found
    split at found
    · obtain rfl := Option.some.inj found
      rw [idle] at holds
      cases holds
    · exact agree.held found holds
  bound {boundId bounded ownerId} found named live := by
    obtain ⟨holder, held, holds⟩ := agree.bound found named live
    have apart : ownerId ≠ agentId := by
      rintro rfl
      rw [fresh] at held
      cases held
    exact ⟨holder, by rw [Record.get?_set_of_ne apart, held], holds⟩

/-- Ending an attempt together with the release of its agent. -/
theorem BindingsAgree.release {attemptId moment : String} {attempt ended : AttemptRuntimeState}
    {released : Record AgentBindingContract} (present : attempts.get? attemptId = some attempt)
    (live : terminalAttemptStatus attempt.status = false)
    (terminal : terminalAttemptStatus ended.status = true)
    (names : ended.agentId = attempt.agentId)
    (release : releaseAttemptAgent agents attempt moment = .ok released) :
    BindingsAgree released (attempts.set attemptId ended) := by
  unfold releaseAttemptAgent at release
  split at release
  next unowned =>
    obtain rfl := Except.ok.inj release
    exact agree.set_attempt present names (Or.inl unowned)
  next agentId named =>
    obtain ⟨agent, registered, works⟩ := agree.bound present named live
    rw [registered] at release
    simp only [bind_eq_ok, exists_unit, pure_eq_ok] at release
    obtain ⟨-, rfl⟩ := release
    refine ⟨?_, ?_, ?_⟩
    · intro otherId other found
      rw [Record.get?_set] at found
      split at found
      · obtain rfl := Option.some.inj found
        simp [AgentBindingStatus.isBusy]
      · exact agree.busy found
    · intro otherId other heldId found holds
      rw [Record.get?_set] at found
      split at found
      · obtain rfl := Option.some.inj found
        cases holds
      next differs =>
        obtain ⟨worked, held, owner, fitting⟩ := agree.held found holds
        have apart : heldId ≠ attemptId := by
          rintro rfl
          obtain rfl := Option.some.inj (held.symm.trans present)
          exact differs (Option.some.inj (owner.symm.trans named))
        exact ⟨worked, by rw [Record.get?_set_of_ne apart, held], owner, fitting⟩
    · intro boundId bounded ownerId found owner open_
      rw [Record.get?_set] at found
      split at found
      · obtain rfl := Option.some.inj found
        rw [terminal] at open_
        cases open_
      next differs =>
        obtain ⟨holder, held, holds⟩ := agree.bound found owner open_
        have apart : ownerId ≠ agentId := by
          rintro rfl
          obtain rfl := Option.some.inj (held.symm.trans registered)
          exact differs (Option.some.inj (holds.symm.trans works))
        exact ⟨holder, by rw [Record.get?_set_of_ne apart, held], holds⟩

/-- Pointing the agent of an attempt to a checkpoint. -/
theorem BindingsAgree.checkpoint {attempt : AttemptRuntimeState} {checkpointId moment : String}
    {checkpointed : Record AgentBindingContract}
    (pointed : checkpointAgent agents attempt checkpointId moment = .ok checkpointed) :
    BindingsAgree checkpointed attempts := by
  unfold checkpointAgent at pointed
  split at pointed
  · obtain rfl := Except.ok.inj pointed
    exact agree
  · split at pointed
    · obtain rfl := Except.ok.inj pointed
      exact agree
    next agent present =>
      simp only [bind_eq_ok, exists_unit, pure_eq_ok] at pointed
      obtain ⟨-, rfl⟩ := pointed
      exact agree.set_agent present rfl Iff.rfl fun _ fits => fits

end

/-- The event rejects an approval of a live attempt that names an agent. -/
def RejectsBoundAttempt (env : Environment) (state : TaskRuntimeProjection)
    (event : OrchestrationEvent) : Prop :=
  ∃ attempt agentId, RejectsAttempt env state event attempt ∧ attempt.agentId = some agentId

structure BindingsInvariant (state : TaskRuntimeProjection) : Prop where
  keyed : WellKeyed state
  agree : BindingsAgree state.agents state.attempts
  unassigned : ∀ {attemptId attempt}, state.attempts.get? attemptId = some attempt →
    attempt.status = .queued → attempt.agentId = none

theorem bindingsInvariant_emptyProjection : BindingsInvariant emptyProjection where
  keyed := wellKeyed_emptyProjection
  agree := ⟨fun found => by simp [emptyProjection] at found,
    fun found => by simp [emptyProjection] at found,
    fun found => by simp [emptyProjection] at found⟩
  unassigned found := by simp [emptyProjection] at found

theorem AttemptStep.queued {attempt next : AttemptRuntimeState}
    (step : AttemptStep env.toDecoders event state attemptId attempt next)
    (queued : next.status = .queued) :
    attempt.status = .queued ∧ next.agentId = attempt.agentId := by
  cases step with
  | verified | pinned | granted | checkpointed => exact ⟨queued, rfl⟩
  | changed aggregate change =>
      rcases change.frame.status with same | ⟨-, running⟩
      · exact ⟨same ▸ queued, change.frame.agentId⟩
      · rw [running] at queued
        cases queued
  | leased | suspended | resumed => cases queued
  | ended live terminal =>
      simp only [AttemptRuntimeState.terminate] at queued
      rw [queued] at terminal
      cases terminal
  | finished kind aggregate decoded =>
      simp only [AttemptRuntimeState.terminate] at queued
      have terminal := congrArg terminalAttemptStatus queued
      rw [attemptStatus_terminal] at terminal
      cases terminal

theorem Transition.unassigned (invariant : BindingsInvariant state)
    (taken : Transition env event state after) {attempt : AttemptRuntimeState}
    (found : after.attempts.get? attemptId = some attempt) (queued : attempt.status = .queued) :
    attempt.agentId = none := by
  have effect := taken.attempt_effect invariant.keyed attemptId
  rw [found] at effect
  generalize earlier : state.attempts.get? attemptId = source at effect
  cases effect with
  | unchanged => exact invariant.unassigned earlier queued
  | queued => rfl
  | stepped step =>
      obtain ⟨same, names⟩ := step.queued queued
      exact names.trans (invariant.unassigned earlier same)

theorem pinPrecedingVerification_agree (invariant : BindingsInvariant state) (taskId : String) :
    BindingsAgree state.agents (pinPrecedingVerification state taskId) := by
  rcases pinPrecedingVerification_spec state taskId with same |
    ⟨preceding, verification, selected, -, -, pinned⟩
  · rw [same]
    exact invariant.agree
  · obtain ⟨task, -, id, -, present⟩ := selectedTaskAttempt_mem selected
    obtain rfl := invariant.keyed.attempts present
    rw [pinned]
    exact invariant.agree.set_attempt present rfl (Or.inr (Or.inl rfl))

/-- Every transition but the rejection of a bound attempt keeps bindings in agreement. -/
theorem Transition.bindingsAgree (invariant : BindingsInvariant state)
    (taken : Transition env event state after)
    (harmless : event.type = .approvalResolved → ¬RejectsBoundAttempt env state event) :
    BindingsAgree after.agents after.attempts := by
  have agree := invariant.agree
  cases taken with
  | hostRecords | subscribed | objectiveCreated | objectiveUpdated | evidenceRecorded
  | objectiveMoved | taskReady | taskFailed | openTaskCancelled | approvalRequested | approvalResolved | notified => exact agree
  | objectiveResumed kind present refreshed | taskCreated kind owner valid fresh refreshed
  | taskVerified kind unbound present recorded refreshed =>
      obtain ⟨tasks, rfl, -⟩ := refreshReadyTasks_spec refreshed
      exact agree
  | @attemptQueued attemptId taskId _ _ _ _ kind owner fresh idle settled =>
      exact (pinPrecedingVerification_agree invariant taskId).add_attempt
        (pinPrecedingVerification_get?_of_fresh invariant.keyed fresh) rfl
  | attemptVerified kind decoded present guarded refreshed =>
      obtain ⟨tasks, rfl, -⟩ := refreshReadyTasks_spec refreshed
      exact agree.set_attempt (assertVerificationTransition_spec guarded).2.1 rfl
        (Or.inr (Or.inl rfl))
  | agentRegistered kind fresh lineage idle =>
      refine agree.add_agent fresh idle.2 ?_
      simp [idle.1, AgentBindingStatus.isBusy]
  | agentRetired kind eligible unretired =>
      obtain ⟨present, registered, -⟩ := assertAgentRetirementEligible_spec eligible unretired
      refine agree.set_agent present rfl ?_ ?_
      · simp [registered, AgentBindingStatus.isBusy]
      · intro status fits
        exact ⟨fun active => by simp at active, fun waiting => by simp at waiting⟩
  | agentResumeRequested kind present bound suspended waiting =>
      refine agree.set_agent present rfl ?_ ?_
      · simp [waiting, AgentBindingStatus.isBusy]
      · intro status fits
        exact ⟨fun active => by simp at active, fun _ => fits.2 (Or.inl waiting)⟩
  | attemptChanged present changed =>
      exact agree.set_attempt present changed.frame.agentId (Or.inr changed.frame.status)
  | attemptGrantBound kind guarded =>
      exact agree.set_attempt (assertAttemptGrantTransition_spec guarded).2.1 rfl
        (Or.inr (Or.inl rfl))
  | @attemptLeased lease agentId attempt agent task kind decoded guarded owner =>
      have admitted := assertAttemptLeaseTransition_spec guarded
      have unassigned := invariant.unassigned admitted.present admitted.queued
      have idle := admitted.idle
      cases named : truthy agentId with
      | none =>
          rw [named] at idle
          subst idle
          exact agree.set_attempt admitted.present (by simp [unassigned]) (Or.inl unassigned)
      | some name =>
          rw [named] at idle
          obtain ⟨found, rfl, registered, status⟩ := idle
          obtain ⟨stated, -⟩ := truthy_eq_some.mp named
          have free : found.activeAttemptId = none := by
            have unheld := (agree.busy registered).not
            rw [status] at unheld
            simpa [AgentBindingStatus.isBusy] using unheld
          simp only [activateAgent, stated, Option.getD_some]
          refine agree.rebind admitted.present (Or.inl unassigned) registered (Or.inl free)
            (Or.inl rfl) rfl ?_ ?_
          · simp
          · exact ⟨fun _ => Or.inl rfl, fun waiting => by simp at waiting⟩
  | attemptCheckpointed kind guarded checkpointed =>
      obtain ⟨present, -⟩ := assertRunningAttemptLease_spec guarded
      exact (agree.checkpoint checkpointed).set_attempt present rfl (Or.inr (Or.inl rfl))
  | @attemptSuspended attemptId agentId attempt _ _ _ kind present unfinished bound suspended =>
      have live : terminalAttemptStatus attempt.status = false := by
        rcases unfinished with same | same <;> rw [same] <;> rfl
      obtain ⟨agent, registered, works⟩ := agree.bound present bound live
      simp only [suspendAgent, registered, bind_eq_ok, exists_unit, pure_eq_ok] at suspended
      obtain ⟨-, rfl⟩ := suspended
      exact agree.rebind present (Or.inr bound) registered (Or.inr works) (Or.inr (Or.inl rfl))
        works bound ⟨fun active => by simp at active, fun _ => rfl⟩
  | attemptResumed kind decoded present suspended holder resuming fence =>
      exact agree.rebind present (Or.inr suspended.2) holder (Or.inr resuming.2) (Or.inl rfl) rfl
        rfl ⟨fun _ => Or.inl rfl, fun waiting => by simp at waiting⟩
  | attemptCancelled kind present live released => exact agree.release present live rfl rfl released
  | attemptFinished kind decoded guarded released refreshed =>
      obtain ⟨tasks, rfl, -⟩ := refreshReadyTasks_spec refreshed
      have admitted := assertAttemptFinishTransition_spec guarded
      refine agree.release admitted.present ?_ (attemptStatus_terminal _) rfl released
      rcases admitted.unfinished with same | same <;> rw [same] <;> rfl
  | attemptLeaseExpired kind present unfinished unbound =>
      exact agree.set_attempt present rfl (Or.inl unbound)
  | openAttemptCancelled kind present live released =>
      exact agree.release present live rfl rfl released
  | approvalRejected kind decoded guarded rejected target =>
      unfold blockRejectedAttempt
      split
      · exact agree
      next attempt found =>
        obtain ⟨present, live⟩ := Option.filter_eq_some_iff.mp found
        obtain rfl := invariant.keyed.attempts present
        refine agree.set_attempt present rfl (Or.inl ?_)
        cases named : attempt.agentId with
        | none => rfl
        | some agentId =>
            exact absurd ⟨attempt, agentId, ⟨kind, _, _, _, decoded, rejected,
              (assertApprovalResolutionTransition_spec guarded).1, target, present,
              of_decide_eq_true live⟩, named⟩ (harmless kind)

theorem Applied.bindingsInvariant (applied : Applied env state event after)
    (harmless : ¬RejectsBoundAttempt env state event) (invariant : BindingsInvariant state) :
    BindingsInvariant after := by
  refine applied.preserves BindingsInvariant
    (fun state event => ¬RejectsBoundAttempt env state event)
    (fun held => ⟨⟨held.keyed.attempts, held.keyed.tasks⟩, held.agree, held.unassigned⟩) ?_ harmless
    invariant
  intro earlier later met held taken
  refine ⟨taken.wellKeyed held.keyed, taken.bindingsAgree held fun kind => met ?_,
    taken.unassigned held⟩
  simp [OrchestrationEventType.isCompound, OrchestrationEventType.closesObjective,
    OrchestrationEventType.createsTask, kind]

theorem Applied.not_bindingsAgree (applied : Applied env state event after)
    (rejects : RejectsBoundAttempt env state event) (invariant : BindingsInvariant state) :
    ¬BindingsAgree after.agents after.attempts := by
  obtain ⟨attempt, agentId, rejected, named⟩ := rejects
  obtain ⟨-, blocked, reduced, rfl⟩ := applied
  obtain ⟨agents, -, attempts, -⟩ := rejected.applied reduced
  obtain ⟨-, -, -, attemptId, -, -, -, -, present, live⟩ := rejected
  obtain ⟨agent, registered, works⟩ := invariant.agree.bound present named live
  intro agree
  simp only [agents, attempts, invariant.keyed.attempts present] at agree
  have busy := (agree.busy registered).mp (by simp [works])
  obtain ⟨ended, stored, -, fits⟩ := agree.held registered works
  rw [Record.get?_set_self] at stored
  obtain rfl := Option.some.inj stored
  rcases busy with same | same | same
  · simpa [AttemptRuntimeState.terminate] using fits.1 same
  · simpa [AttemptRuntimeState.terminate] using fits.2 (Or.inl same)
  · simpa [AttemptRuntimeState.terminate] using fits.2 (Or.inr same)

/-- Bindings agree in every projection of an accepted log exactly when no event of the log rejects
an approval of a live attempt that names an agent. -/
theorem bindings_agree_iff_no_bound_attempt_rejected
    {history : List (TaskRuntimeProjection × OrchestrationEvent)}
    {projection : TaskRuntimeProjection} (log : AcceptedLog env history projection) :
    ((∀ entry ∈ history, BindingsAgree entry.1.agents entry.1.attempts) ∧
        BindingsAgree projection.agents projection.attempts) ↔
      ∀ entry ∈ history, ¬RejectsBoundAttempt env entry.1 entry.2 :=
  Execution.always_iff _ (fun state => BindingsAgree state.agents state.attempts) _
    bindingsInvariant_emptyProjection (fun held => held.agree)
    (fun held applied harmless => applied.bindingsInvariant harmless held)
    (fun held applied rejects => applied.not_bindingsAgree rejects held) log

/-- Calls that reject a second approval of an attempt after an agent leased it. -/
def boundRejectionCalls : List Call :=
  [givenCall "1" (givenObjective "objective" []), givenCall "2" (givenTask "objective" "task" []),
    givenCall "3" (givenAttempt "task"), givenCall "4" (givenAgent "agent" none),
    givenCall "5" (givenApproval "first" "objective" "task" "attempt-3"),
    givenCall "6" (.resolveApproval "first" .approved "granted"),
    givenCall "7" (givenApproval "second" "objective" "task" "attempt-3"),
    givenCall "8" (givenGrant "objective" "task" "attempt-3"),
    givenCall "9" (givenLeasing "attempt-3" (some "agent")),
    givenCall "10" (.resolveApproval "second" .rejected "withdrawn")]

/-- The agent of the rejected attempt stays active. -/
theorem boundRejectionCalls_run : ∃ projection run,
    RuntimeRun givenEnvironment run projection ∧
      ¬BindingsAgree projection.agents projection.attempts := by
  obtain ⟨projection, run, reached, bound⟩ := runtimeRun_of_calls givenEnvironment
    boundRejectionCalls
    (fun projection =>
      (projection.agents.get? "agent").any (fun agent =>
        agent.status = .active ∧ agent.activeAttemptId = some "attempt-3") &&
      (projection.attempts.get? "attempt-3").any (fun attempt => attempt.status = .blocked))
    (by decide +kernel)
  refine ⟨projection, run, reached, fun agree => ?_⟩
  simp only [Bool.and_eq_true, Option.any_eq_true, decide_eq_true_eq] at bound
  obtain ⟨⟨agent, registered, active, works⟩, attempt, present, blocked⟩ := bound
  obtain ⟨held, stored, -, fits⟩ := agree.held registered works
  obtain rfl := Option.some.inj (present.symm.trans stored)
  simpa [blocked] using fits.1 active

/-- A command can leave an agent bound to an attempt that has ended. -/
theorem agent_bound_to_rejected_attempt :
    ¬∀ env run projection, RuntimeRun env run projection →
      BindingsAgree projection.agents projection.attempts := by
  intro agree
  obtain ⟨projection, run, reached, disagree⟩ := boundRejectionCalls_run
  exact disagree (agree _ _ _ reached)

/-- The log of the given calls holds the rejection that unbalances the bindings. -/
theorem bound_attempt_was_rejected : ∃ history projection,
    AcceptedLog givenEnvironment history projection ∧
      ∃ entry ∈ history, RejectsBoundAttempt givenEnvironment entry.1 entry.2 := by
  obtain ⟨projection, run, reached, disagree⟩ := boundRejectionCalls_run
  obtain ⟨history, log, -⟩ := reached.log
  refine ⟨history, projection, log, ?_⟩
  by_contra harmless
  refine disagree ((bindings_agree_iff_no_bound_attempt_rejected log).mpr ?_).2
  exact fun entry member rejects => harmless ⟨entry, member, rejects⟩

end PiAdaptative.TaskRuntime
