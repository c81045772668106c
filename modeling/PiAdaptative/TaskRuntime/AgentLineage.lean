import PiAdaptative.TaskRuntime.Calls
import PiAdaptative.TaskRuntime.AttemptSteps

/-!
# Agent lineage

Agents form a forest: a registration names a parent that is retained and not retired, and nothing
rewrites a lineage afterwards.  An agent retires once every agent below it has, and a retired agent
is neither bound nor written again.
-/

namespace PiAdaptative.TaskRuntime

variable {env : Environment} {event : OrchestrationEvent}
variable {state after : TaskRuntimeProjection} {agents : Record AgentBindingContract}

/-- One agent was registered under the other. -/
def ChildOf (agents : Record AgentBindingContract) (childId parentId : String) : Prop :=
  ∃ child, agents.get? childId = some child ∧ child.parentAgentId = some parentId

def RetiredAgent (agents : Record AgentBindingContract) (agentId : String) : Prop :=
  ∃ agent, agents.get? agentId = some agent ∧ agent.status = .retired

/-- Lineages are well formed, and retirement is closed under descendants. -/
structure LineageSound (agents : Record AgentBindingContract) : Prop where
  acyclic : ∀ agentId, ¬Relation.TransGen (ChildOf agents) agentId agentId
  /-- A child is one level below its parent and has the same root. -/
  child : ∀ childId child parentId, agents.get? childId = some child →
    child.parentAgentId = some parentId →
      ∃ parent, agents.get? parentId = some parent ∧ child.depth = parent.depth + 1 ∧
        child.rootAgentId = parent.rootAgentId
  descendants : ∀ descendantId ancestorId, Relation.TransGen (ChildOf agents) descendantId
    ancestorId → RetiredAgent agents ancestorId → RetiredAgent agents descendantId
  idle : ∀ agentId agent, agents.get? agentId = some agent → agent.status = .retired →
    agent.activeAttemptId = none
  /-- Walking up from an agent never meets a cycle. -/
  walk : ∀ candidate ∈ agents.values, ∀ ancestorId,
    ∃ reached, isAgentDescendant agents candidate ancestorId = .ok reached

/-- Nothing of the lineage of an agent changed. -/
structure SameLineage (agent next : AgentBindingContract) : Prop where
  agentId : next.agentId = agent.agentId
  parentAgentId : next.parentAgentId = agent.parentAgentId
  rootAgentId : next.rootAgentId = agent.rootAgentId
  depth : next.depth = agent.depth

/-- What a transition does to the agent filed under an identity. -/
inductive AgentEffect (event : OrchestrationEvent) (agents : Record AgentBindingContract)
    (agentId : String) : Option AgentBindingContract → Option AgentBindingContract → Prop
  | unchanged (agent : Option AgentBindingContract) : AgentEffect event agents agentId agent agent
  | registered {agent : AgentBindingContract} (kind : event.type = .agentRegistered)
      (named : agent.agentId = agentId) (registered : agent.status = .registered)
      (lineage : assertAgentLineage agents agent = .ok ()) :
      AgentEffect event agents agentId none (some agent)
  | changed {agent next : AgentBindingContract} (same : SameLineage agent next)
      (live : agent.status ≠ .retired) (lives : next.status ≠ .retired) :
      AgentEffect event agents agentId (some agent) (some next)
  | retired {agent next : AgentBindingContract} (kind : event.type = .agentRetired)
      (same : SameLineage agent next) (live : agent.status ≠ .retired)
      (retires : next.status = .retired)
      (idle : next.activeAttemptId = none)
      (childless : ∀ child ∈ agents.values, child.status = .retired ∨ child.agentId = agentId ∨
        isAgentDescendant agents child agentId = .ok false) :
      AgentEffect event agents agentId (some agent) (some next)

variable {agentId : String}

/-- Rewriting one live agent leaves every other agent. -/
theorem AgentEffect.of_set {agent next : AgentBindingContract}
    (present : agents.get? agentId = some agent) (same : SameLineage agent next)
    (live : agent.status ≠ .retired) (lives : next.status ≠ .retired) (other : String) :
    AgentEffect event agents other (agents.get? other) ((agents.set agentId next).get? other) := by
  by_cases named : other = agentId
  · subst named
    rw [present, Record.get?_set_self]
    exact .changed same live lives
  · rw [Record.get?_set_of_ne named]
    exact .unchanged _

variable {attempt : AttemptRuntimeState}

theorem releaseAttemptAgent_effect {moment : String} {released : Record AgentBindingContract}
    (release : releaseAttemptAgent agents attempt moment = .ok released) (other : String) :
    AgentEffect event agents other (agents.get? other) (released.get? other) := by
  unfold releaseAttemptAgent at release
  split at release
  · obtain rfl := Except.ok.inj release
    exact .unchanged _
  · split at release
    · obtain rfl := Except.ok.inj release
      exact .unchanged _
    next agent present =>
      simp only [bind_eq_ok, exists_unit, pure_eq_ok, assertAgentNotRetired_eq_ok] at release
      obtain ⟨live, rfl⟩ := release
      refine .of_set present ?_ live ?_ other
      · exact ⟨rfl, rfl, rfl, rfl⟩
      · simp

theorem checkpointAgent_effect {checkpointId moment : String}
    {checkpointed : Record AgentBindingContract}
    (pointed : checkpointAgent agents attempt checkpointId moment = .ok checkpointed)
    (other : String) :
    AgentEffect event agents other (agents.get? other) (checkpointed.get? other) := by
  unfold checkpointAgent at pointed
  split at pointed
  · obtain rfl := Except.ok.inj pointed
    exact .unchanged _
  · split at pointed
    · obtain rfl := Except.ok.inj pointed
      exact .unchanged _
    next agent present =>
      simp only [bind_eq_ok, exists_unit, pure_eq_ok, assertAgentNotRetired_eq_ok] at pointed
      obtain ⟨live, rfl⟩ := pointed
      refine .of_set present ?_ live ?_ other
      · exact ⟨rfl, rfl, rfl, rfl⟩
      · exact live

theorem suspendAgent_effect {agentId moment : String} {suspended : Record AgentBindingContract}
    (suspend : suspendAgent agents agentId moment = .ok suspended) (other : String) :
    AgentEffect event agents other (agents.get? other) (suspended.get? other) := by
  unfold suspendAgent at suspend
  split at suspend
  · obtain rfl := Except.ok.inj suspend
    exact .unchanged _
  next agent present =>
    simp only [bind_eq_ok, exists_unit, pure_eq_ok, assertAgentNotRetired_eq_ok] at suspend
    obtain ⟨live, rfl⟩ := suspend
    refine .of_set present ?_ live ?_ other
    · exact ⟨rfl, rfl, rfl, rfl⟩
    · simp

theorem findLiveDescendant_eq_none {ancestorId : String} {listed : List AgentBindingContract}
    (none_found : findLiveDescendant agents ancestorId listed = .ok none) :
    ∀ child ∈ listed, child.status = .retired ∨ child.agentId = ancestorId ∨
      isAgentDescendant agents child ancestorId = .ok false := by
  induction listed with
  | nil => simp
  | cons candidate listed ih =>
      unfold findLiveDescendant at none_found
      split at none_found
      next skipped =>
        refine List.forall_mem_cons.mpr ⟨?_, ih none_found⟩
        rcases skipped with retired | itself
        · exact Or.inl retired
        · exact Or.inr (Or.inl itself)
      · simp only [bind_eq_ok] at none_found
        obtain ⟨descends, walked, rest⟩ := none_found
        split at rest
        · simp [pure, Except.pure] at rest
        next distant =>
          refine List.forall_mem_cons.mpr ⟨Or.inr (Or.inr ?_), ih rest⟩
          rw [walked, eq_false_of_ne_true distant]

/-- What a transition does to the agent filed under an identity. -/
theorem Transition.agent_effect (taken : Transition env event state after) (agentId : String) :
    AgentEffect event state.agents agentId (state.agents.get? agentId)
      (after.agents.get? agentId) := by
  cases taken with
  | hostRecords | subscribed | objectiveCreated | objectiveUpdated | evidenceRecorded
  | objectiveMoved | attemptQueued | taskReady | taskFailed | attemptChanged | attemptGrantBound
  | attemptLeaseExpired | openTaskCancelled | approvalRequested | approvalResolved
  | notified => exact .unchanged _
  | objectiveResumed kind present refreshed | taskCreated kind owner valid fresh refreshed
  | taskVerified kind unbound present recorded refreshed
  | attemptVerified kind decoded present guarded refreshed =>
      obtain ⟨tasks, rfl, -⟩ := refreshReadyTasks_spec refreshed
      exact .unchanged _
  | @agentRegistered agent kind fresh lineage idle =>
      by_cases named : agentId = agent.agentId
      · subst named
        rw [fresh, Record.get?_set_self]
        exact .registered kind rfl idle.1 lineage
      · rw [Record.get?_set_of_ne named]
        exact .unchanged _
  | @agentRetired retiredId agent kind eligible unretired =>
      obtain ⟨present, -, idle, searched⟩ := assertAgentRetirementEligible_spec eligible unretired
      by_cases named : agentId = retiredId
      · subst named
        rw [present, Record.get?_set_self]
        exact .retired kind ⟨rfl, rfl, rfl, rfl⟩ unretired rfl idle
          (findLiveDescendant_eq_none searched)
      · rw [Record.get?_set_of_ne named]
        exact .unchanged _
  | agentResumeRequested kind present bound suspended waiting =>
      refine .of_set present ?_ (by simp [waiting]) ?_ agentId
      · exact ⟨rfl, rfl, rfl, rfl⟩
      · simp
  | @attemptLeased lease leasedId attempt agent task kind decoded guarded owner =>
      have idle := (assertAttemptLeaseTransition_spec guarded).idle
      cases named : truthy leasedId with
      | none =>
          rw [named] at idle
          subst idle
          exact .unchanged _
      | some name =>
          rw [named] at idle
          obtain ⟨found, rfl, registered, status⟩ := idle
          obtain ⟨stated, -⟩ := truthy_eq_some.mp named
          simp only [activateAgent, stated, Option.getD_some]
          refine .of_set registered ?_ (by simp [status]) ?_ agentId
          · exact ⟨rfl, rfl, rfl, rfl⟩
          · simp
  | attemptCheckpointed kind guarded checkpointed =>
      exact checkpointAgent_effect checkpointed agentId
  | attemptSuspended kind present unfinished bound suspended =>
      exact suspendAgent_effect suspended agentId
  | attemptResumed kind decoded present suspended holder resuming fence =>
      refine .of_set holder ?_ (by simp [resuming.1]) ?_ agentId
      · exact ⟨rfl, rfl, rfl, rfl⟩
      · simp
  | attemptCancelled kind present live released
  | openAttemptCancelled kind present live released =>
      exact releaseAttemptAgent_effect released agentId
  | attemptFinished kind decoded guarded released refreshed =>
      obtain ⟨tasks, rfl, -⟩ := refreshReadyTasks_spec refreshed
      exact releaseAttemptAgent_effect released agentId
  | approvalRejected kind decoded guarded rejected target =>
      unfold blockRejectedAttempt
      split <;> exact .unchanged _

/-- The invariant of the agents: a forest whose retired agents are closed under children. -/
structure LineageInvariant (agents : Record AgentBindingContract) : Prop where
  keyed : ∀ agentId agent, agents.get? agentId = some agent → agent.agentId = agentId
  /-- A child is one level below its parent and has the same root. -/
  child : ∀ childId child parentId, agents.get? childId = some child →
    child.parentAgentId = some parentId →
      ∃ parent, agents.get? parentId = some parent ∧ child.depth = parent.depth + 1 ∧
        child.rootAgentId = parent.rootAgentId
  closed : ∀ childId parentId, ChildOf agents childId parentId → RetiredAgent agents parentId →
    RetiredAgent agents childId
  idle : ∀ agentId agent, agents.get? agentId = some agent → agent.status = .retired →
    agent.activeAttemptId = none

variable {descendantId ancestorId : String}

section

variable (invariant : LineageInvariant agents)
include invariant

theorem LineageInvariant.depth_lt
    (descends : Relation.TransGen (ChildOf agents) descendantId ancestorId) :
    ∃ descendant ancestor, agents.get? descendantId = some descendant ∧
      agents.get? ancestorId = some ancestor ∧ ancestor.depth < descendant.depth := by
  induction descends with
  | single step =>
      obtain ⟨child, found, named⟩ := step
      obtain ⟨parent, present, deeper, -⟩ := invariant.child _ child _ found named
      exact ⟨child, parent, found, present, by omega⟩
  | tail _ step ih =>
      obtain ⟨descendant, middle, found, held, deeper⟩ := ih
      obtain ⟨child, again, named⟩ := step
      obtain rfl := Option.some.inj (held.symm.trans again)
      obtain ⟨parent, present, above, -⟩ := invariant.child _ middle _ held named
      exact ⟨descendant, parent, found, present, by omega⟩

theorem LineageInvariant.descendants
    (descends : Relation.TransGen (ChildOf agents) descendantId ancestorId)
    (retired : RetiredAgent agents ancestorId) : RetiredAgent agents descendantId := by
  induction descends with
  | single step => exact invariant.closed _ _ step retired
  | tail _ step ih => exact ih (invariant.closed _ _ step retired)

/-- A walk up the lineage meets only agents it has not visited, so it ends. -/
theorem LineageInvariant.lineageReaches_ok
    {candidateId ancestorId : String} {steps : Nat} {visited : List String}
    {parentId : Option String} (distinct : visited.Nodup) (retained : visited ⊆ agents.keys)
    (enough : agents.size + 1 ≤ steps + visited.length)
    (above : ∀ id, parentId = some id → ∃ parent, agents.get? id = some parent ∧
      ∀ seen ∈ visited, ∀ agent, agents.get? seen = some agent → parent.depth < agent.depth) :
    ∃ reached, lineageReaches agents candidateId ancestorId steps visited parentId =
      .ok reached := by
  induction steps generalizing visited parentId with
  | zero =>
      cases parentId with
      | none => exact ⟨false, rfl⟩
      | some id =>
          have bounded := (List.subperm_of_subset distinct retained).length_le
          simp only [Record.keys, List.length_map] at bounded
          simp only [Record.size] at enough
          omega
  | succ steps ih =>
      cases parentId with
      | none => exact ⟨false, rfl⟩
      | some id =>
          obtain ⟨parent, present, deeper⟩ := above id rfl
          have unvisited : id ∉ visited := fun member =>
            Nat.lt_irrefl _ (deeper id member parent present)
          unfold lineageReaches
          split
          · exact ⟨true, rfl⟩
          · rw [present]
            refine ih (List.nodup_cons.mpr ⟨unvisited, distinct⟩) ?_ ?_ ?_
            · refine List.cons_subset.mpr ⟨?_, retained⟩
              by_contra absent
              rw [Record.get?_eq_none.mpr absent] at present
              cases present
            · rw [List.length_cons]
              omega
            · intro grandparentId named
              obtain ⟨grandparent, found, above, -⟩ :=
                invariant.child id parent grandparentId present named
              refine ⟨grandparent, found, ?_⟩
              intro seen member agent held
              rcases List.mem_cons.mp member with rfl | earlier
              · obtain rfl := Option.some.inj (held.symm.trans present)
                omega
              · have := deeper seen earlier agent held
                omega

theorem LineageInvariant.sound : LineageSound agents where
  acyclic agentId cycle := by
    obtain ⟨agent, again, found, held, deeper⟩ := invariant.depth_lt cycle
    obtain rfl := Option.some.inj (found.symm.trans held)
    exact Nat.lt_irrefl _ deeper
  child := invariant.child
  descendants _ _ := invariant.descendants
  idle := invariant.idle
  walk candidate member ancestorId := by
    obtain ⟨candidateId, found⟩ := Record.mem_values.mp member
    refine invariant.lineageReaches_ok List.nodup_nil (List.nil_subset _) (by simp) ?_
    intro parentId named
    obtain ⟨parent, present, -⟩ := invariant.child candidateId candidate parentId found named
    exact ⟨parent, present, by simp⟩

end

theorem lineageInvariant_emptyProjection : LineageInvariant emptyProjection.agents where
  keyed _ _ found := by simp [emptyProjection] at found
  child _ _ _ found := by simp [emptyProjection] at found
  closed _ _ descends := by
    obtain ⟨_, found, -⟩ := descends
    simp [emptyProjection] at found
  idle _ _ found := by simp [emptyProjection] at found

variable {agent : AgentBindingContract}

/-- An agent stays retained with its lineage. -/
theorem AgentEffect.kept {target : Option AgentBindingContract}
    (effect : AgentEffect event agents agentId (some agent) target) :
    ∃ next, target = some next ∧ SameLineage agent next ∧
      (agent.status = .retired → next = agent) := by
  cases effect with
  | unchanged => exact ⟨agent, rfl, ⟨rfl, rfl, rfl, rfl⟩, fun _ => rfl⟩
  | changed same live | retired kind same live =>
      exact ⟨_, rfl, same, fun retired => absurd retired live⟩

/-- An agent that is retained afterwards was registered just now or retained before. -/
theorem AgentEffect.origin {source : Option AgentBindingContract} {next : AgentBindingContract}
    (effect : AgentEffect event agents agentId source (some next)) :
    (event.type = .agentRegistered ∧ source = none ∧ next.agentId = agentId ∧
        next.status = .registered ∧ assertAgentLineage agents next = .ok ()) ∨
      ∃ agent, source = some agent ∧ SameLineage agent next := by
  cases effect with
  | unchanged => exact Or.inr ⟨next, rfl, ⟨rfl, rfl, rfl, rfl⟩⟩
  | registered kind named registered lineage =>
      exact Or.inl ⟨kind, rfl, named, registered, lineage⟩
  | changed same | retired kind same => exact Or.inr ⟨_, rfl, same⟩

theorem assertAgentLineage_parent {parentId : String}
    (lineage : assertAgentLineage agents agent = .ok ())
    (named : agent.parentAgentId = some parentId) :
    ∃ parent, agents.get? parentId = some parent ∧ parent.status ≠ .retired ∧
      agent.depth = parent.depth + 1 ∧ agent.rootAgentId = parent.rootAgentId := by
  simp only [assertAgentLineage, named, bind_eq_ok, exists_unit, orThrow_eq_ok, throwIf_eq_ok,
    not_or, not_not] at lineage
  obtain ⟨parent, present, live, root, depth⟩ := lineage
  exact ⟨parent, present, live, depth, root⟩

theorem isAgentDescendant_of_parent {child : AgentBindingContract} {parentId : String}
    (named : child.parentAgentId = some parentId) :
    isAgentDescendant agents child parentId = .ok true := by
  simp [isAgentDescendant, named, lineageReaches]

/-- Every transition keeps the lineage invariant. -/
theorem Transition.lineageInvariant (invariant : LineageInvariant state.agents)
    (taken : Transition env event state after) : LineageInvariant after.agents := by
  have effect := taken.agent_effect
  -- Before the transition, the child was retained or its parent was live and one level above it.
  have origin : ∀ childId child parentId, after.agents.get? childId = some child →
      child.parentAgentId = some parentId →
        ∃ parent, state.agents.get? parentId = some parent ∧ child.depth = parent.depth + 1 ∧
          child.rootAgentId = parent.rootAgentId ∧
            (event.type = .agentRegistered ∧ parent.status ≠ .retired ∨
              ∃ source, state.agents.get? childId = some source ∧ SameLineage source child) := by
    intro childId child parentId found named
    have change := effect childId
    rw [found] at change
    rcases change.origin with ⟨kind, -, -, -, lineage⟩ | ⟨source, present, same⟩
    · obtain ⟨parent, held, live, depth, root⟩ := assertAgentLineage_parent lineage named
      exact ⟨parent, held, depth, root, Or.inl ⟨kind, live⟩⟩
    · obtain ⟨parent, held, depth, root⟩ := invariant.child childId source parentId present
        (same.parentAgentId ▸ named)
      exact ⟨parent, held, same.depth.trans depth, same.rootAgentId.trans root,
        Or.inr ⟨source, present, same⟩⟩
  refine ⟨?_, ?_, ?_, ?_⟩
  · intro agentId agent found
    have change := effect agentId
    rw [found] at change
    rcases change.origin with ⟨-, -, named, -⟩ | ⟨source, present, same⟩
    · exact named
    · exact same.agentId.trans (invariant.keyed agentId source present)
  · intro childId child parentId found named
    obtain ⟨parent, held, depth, root, -⟩ := origin childId child parentId found named
    have change := effect parentId
    rw [held] at change
    obtain ⟨next, stays, same, -⟩ := change.kept
    exact ⟨next, stays, by rw [same.depth, depth], by rw [same.rootAgentId, root]⟩
  · rintro childId parentId ⟨child, found, named⟩ ⟨next, stays, retired⟩
    obtain ⟨parent, held, depth, -, birth⟩ := origin childId child parentId found named
    have change := effect parentId
    rw [held, stays] at change
    rcases birth with ⟨kind, live⟩ | ⟨source, present, same⟩
    · cases change with
      | unchanged => exact absurd retired live
      | changed _ _ lives => exact absurd retired lives
      | retired retires => rw [kind] at retires; cases retires
    · have below : ChildOf state.agents childId parentId :=
        ⟨source, present, same.parentAgentId ▸ named⟩
      have before : RetiredAgent state.agents childId := by
        cases change with
        | unchanged => exact invariant.closed childId parentId below ⟨_, held, retired⟩
        | changed _ _ lives => exact absurd retired lives
        | retired _ _ _ _ _ childless =>
            rcases childless source (Record.mem_values.mpr ⟨childId, present⟩) with
              retired | itself | distant
            · exact ⟨source, present, retired⟩
            · obtain rfl := (invariant.keyed childId source present).symm.trans itself
              obtain rfl := Option.some.inj (present.symm.trans held)
              have := same.depth
              omega
            · rw [isAgentDescendant_of_parent (same.parentAgentId ▸ named)] at distant
              cases distant
      obtain ⟨agent, again, retired⟩ := before
      have own := effect childId
      rw [again] at own
      obtain ⟨_, kept, -, frozen⟩ := own.kept
      obtain rfl := frozen retired
      exact ⟨_, kept, retired⟩
  · intro agentId agent found retired
    have change := effect agentId
    rw [found] at change
    generalize earlier : state.agents.get? agentId = source at change
    cases change with
    | unchanged => exact invariant.idle agentId agent earlier retired
    | registered _ _ registered =>
        rw [registered] at retired
        cases retired
    | changed _ _ lives => exact absurd retired lives
    | retired _ _ _ _ idle => exact idle

theorem Applied.retired_stay (applied : Applied env state event after)
    (found : state.agents.get? agentId = some agent) (retired : agent.status = .retired) :
    after.agents.get? agentId = some agent := by
  refine applied.preserves (fun state => state.agents.get? agentId = some agent)
    (fun _ _ => True) id ?_ trivial found
  intro earlier later _ held taken
  have change := taken.agent_effect agentId
  rw [held] at change
  obtain ⟨next, stays, -, frozen⟩ := change.kept
  exact stays.trans (congrArg some (frozen retired))

/-- In every accepted log the agents form a forest whose retirements are final and closed under
descendants, and no walk up a lineage meets a cycle. -/
theorem agent_lineage_sound {history : List (TaskRuntimeProjection × OrchestrationEvent)}
    {projection : TaskRuntimeProjection} (log : AcceptedLog env history projection) :
    LineageSound projection.agents ∧
      ∀ entry ∈ history, LineageSound entry.1.agents ∧
        ∀ agentId agent, entry.1.agents.get? agentId = some agent → agent.status = .retired →
          projection.agents.get? agentId = some agent := by
  have invariant : ∀ {earlier state}, AcceptedLog env earlier state →
      LineageInvariant state.agents := fun run =>
    holds_after_execution (fun state => LineageInvariant state.agents) id
      (fun held taken => taken.lineageInvariant held) run lineageInvariant_emptyProjection
  refine ⟨(invariant log).sound, fun entry member => ?_⟩
  obtain ⟨earlier, later, rfl⟩ := List.append_of_mem member
  obtain ⟨before, next, applied, rest⟩ := log.split_at
  refine ⟨(invariant before).sound, fun agentId agent found retired => ?_⟩
  exact rest.preserves (fun state => state.agents.get? agentId = some agent)
    (applied.retired_stay found retired) fun held taken => taken.retired_stay held retired

/-- Calls that register an agent with a child and retire both. -/
def retiredLineageCalls : List Call :=
  [givenCall "1" (givenAgent "parent" none), givenCall "2" (givenAgent "child" (some "parent")),
    givenCall "3" (.retireAgent "child"), givenCall "4" (.retireAgent "parent")]

/-- The lineage of the given calls is sound, with a retired parent and a retired child. -/
theorem retired_lineage_is_sound : ∃ history projection,
    AcceptedLog givenEnvironment history projection ∧ LineageSound projection.agents ∧
      RetiredAgent projection.agents "parent" ∧ RetiredAgent projection.agents "child" := by
  obtain ⟨projection, run, reached, retired⟩ := runtimeRun_of_calls givenEnvironment
    retiredLineageCalls
    (fun projection =>
      (projection.agents.get? "parent").any (fun agent => agent.status = .retired) &&
        (projection.agents.get? "child").any (fun agent => agent.status = .retired))
    (by decide +kernel)
  obtain ⟨history, log, -⟩ := reached.log
  simp only [Bool.and_eq_true, Option.any_eq_true, decide_eq_true_eq] at retired
  exact ⟨history, projection, log, (agent_lineage_sound log).1, retired.1, retired.2⟩

end PiAdaptative.TaskRuntime
