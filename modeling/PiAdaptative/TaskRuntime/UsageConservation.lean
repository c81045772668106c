import Mathlib.Algebra.BigOperators.Group.List.Basic
import Mathlib.Algebra.Order.Field.Rat
import Mathlib.Tactic.Linarith
import PiAdaptative.TaskRuntime.LeaseFencing

/-!
# Conservation of accounted usage

The accounted total of an attempt is the total of its lease generations, and every billable
component of it is either in a pending receipt or in one already delivered.  A new generation
starts from the total, so it adds nothing by itself and sorts behind the generations before it.
-/

namespace PiAdaptative.TaskRuntime

variable {env : Environment} {event : OrchestrationEvent}
variable {state after : TaskRuntimeProjection} {attemptId : String}

def billableComponents : List (AttemptUsageSnapshot → Rat) :=
  [AttemptUsageSnapshot.inputTokens, AttemptUsageSnapshot.outputTokens,
    AttemptUsageSnapshot.cacheReadTokens, AttemptUsageSnapshot.cacheWriteTokens,
    AttemptUsageSnapshot.totalTokens, AttemptUsageSnapshot.costUsd]

theorem forall_billable {holds : (AttemptUsageSnapshot → Rat) → Prop} :
    (∀ component ∈ billableComponents, holds component) ↔
      holds AttemptUsageSnapshot.inputTokens ∧ holds AttemptUsageSnapshot.outputTokens ∧
      holds AttemptUsageSnapshot.cacheReadTokens ∧ holds AttemptUsageSnapshot.cacheWriteTokens ∧
      holds AttemptUsageSnapshot.totalTokens ∧ holds AttemptUsageSnapshot.costUsd := by
  simp [billableComponents]

variable {component : AttemptUsageSnapshot → Rat}

theorem component_combine (billed : component ∈ billableComponents) (operation : Rat → Rat → Rat)
    (left right : AttemptUsageSnapshot) :
    component (left.combine operation right) = operation (component left) (component right) := by
  revert component
  rw [forall_billable]
  exact ⟨rfl, rfl, rfl, rfl, rfl, rfl⟩

/-- A snapshot whose components are admissible counters and measures. -/
def ValidUsage (usage : AttemptUsageSnapshot) : Prop :=
  (∀ label, validateAttemptUsageSnapshot usage label = .ok usage)

theorem validateAttemptUsageSnapshot_eq_ok {usage result : AttemptUsageSnapshot}
    {label : String} :
    validateAttemptUsageSnapshot usage label = .ok result ↔ ValidUsage usage ∧ usage = result := by
  constructor
  · intro validated
    have same : usage = result := by
      simp only [validateAttemptUsageSnapshot, bind_eq_ok, exists_unit, pure_eq_ok] at validated
      exact validated.2.2.2.2.2.2.2.2
    refine ⟨fun other => ?_, same⟩
    simp only [validateAttemptUsageSnapshot, usageCounter, usageMeasure, bind_eq_ok, exists_unit,
      throwPlainIf_eq_ok, pure_eq_ok] at validated ⊢
    exact ⟨validated.1, validated.2.1, validated.2.2.1, validated.2.2.2.1, validated.2.2.2.2.1,
      validated.2.2.2.2.2.1, validated.2.2.2.2.2.2.1, validated.2.2.2.2.2.2.2.1, trivial⟩
  · rintro ⟨valid, rfl⟩
    exact valid label

variable {usage : AttemptUsageSnapshot}

theorem ValidUsage.nonneg (valid : ValidUsage usage) (billed : component ∈ billableComponents) :
    0 ≤ component usage := by
  have validated := valid ""
  simp only [validateAttemptUsageSnapshot, usageCounter, usageMeasure, bind_eq_ok, exists_unit,
    throwPlainIf_eq_ok, pure_eq_ok, not_or, not_lt] at validated
  obtain ⟨-, input, output, read, write, total, cost, -⟩ := validated
  revert component
  rw [forall_billable]
  exact ⟨input.2, output.2, read.2, write.2, total.2, cost⟩

theorem validUsage_empty : ValidUsage EMPTY_ATTEMPT_USAGE := by
  intro label
  rfl

theorem attemptUsageIncrease_eq_ok {reported previous increase : AttemptUsageSnapshot} :
    attemptUsageIncrease reported previous = .ok increase →
      ValidUsage reported ∧ ValidUsage previous ∧ ValidUsage increase ∧
        increase = reported.combine (· - ·) previous := by
  simp only [attemptUsageIncrease, bind_eq_ok, exists_unit, validateAttemptUsageSnapshot_eq_ok]
  rintro ⟨_, ⟨reportedValid, rfl⟩, _, ⟨previousValid, rfl⟩, -, increaseValid, rfl⟩
  exact ⟨reportedValid, previousValid, increaseValid, rfl⟩

theorem combine_sub_self (usage : AttemptUsageSnapshot) :
    usage.combine (· - ·) usage = EMPTY_ATTEMPT_USAGE := by
  simp [AttemptUsageSnapshot.combine, EMPTY_ATTEMPT_USAGE]

theorem combine_add_empty (usage : AttemptUsageSnapshot) :
    usage.combine (· + ·) EMPTY_ATTEMPT_USAGE = usage := by
  simp [AttemptUsageSnapshot.combine, EMPTY_ATTEMPT_USAGE]

theorem attemptUsageIncrease_self (valid : ValidUsage usage) :
    attemptUsageIncrease usage usage = .ok EMPTY_ATTEMPT_USAGE := by
  simp only [attemptUsageIncrease, bind_eq_ok, exists_unit, validateAttemptUsageSnapshot_eq_ok,
    combine_sub_self]
  exact ⟨usage, ⟨valid, rfl⟩, usage, ⟨valid, rfl⟩, rfl, validUsage_empty, trivial⟩

theorem addAttemptUsage_empty (valid : ValidUsage usage) (label : String) :
    addAttemptUsage usage EMPTY_ATTEMPT_USAGE label = .ok usage := by
  simp only [addAttemptUsage, bind_eq_ok, validateAttemptUsageSnapshot_eq_ok, combine_add_empty]
  exact ⟨usage, ⟨valid, rfl⟩, _, ⟨validUsage_empty, rfl⟩, valid, trivial⟩

variable {total : AttemptUsageSnapshot}

theorem addGenerationUsage_append {generations later : List AttemptUsageGeneration} :
    addGenerationUsage total (generations ++ later) =
      (do
        let middle ← addGenerationUsage total generations
        addGenerationUsage middle later) := by
  induction generations generalizing total with
  | nil => rfl
  | cons generation generations ih =>
      simp only [List.cons_append, addGenerationUsage]
      cases attemptUsageIncrease generation.reported generation.baseline with
      | error error => rfl
      | ok increase =>
          simp only [Bind.bind, Except.bind]
          cases addAttemptUsage total increase "generation accounting" with
          | error error => rfl
          | ok next => exact ih

variable {generation : AttemptUsageGeneration}

theorem addGenerationUsage_idle (valid : ValidUsage total)
    (registered : ValidUsage generation.baseline)
    (idle : generation.reported = generation.baseline) :
    addGenerationUsage total [generation] = .ok total := by
  simp only [addGenerationUsage, bind_eq_ok, idle, attemptUsageIncrease_self registered]
  exact ⟨_, rfl, total, addAttemptUsage_empty valid _, rfl⟩

theorem addGenerationUsage_valid {generations : List AttemptUsageGeneration}
    {total result : AttemptUsageSnapshot} (valid : ValidUsage total)
    (added : addGenerationUsage total generations = .ok result) : ValidUsage result := by
  induction generations generalizing total with
  | nil =>
      obtain rfl := Except.ok.inj added
      exact valid
  | cons generation generations ih =>
      simp only [addGenerationUsage, addAttemptUsage, bind_eq_ok,
        validateAttemptUsageSnapshot_eq_ok] at added
      obtain ⟨increase, -, next, ⟨-, -, -, -, nextValid, rfl⟩, rest⟩ := added
      exact ih nextValid rest

variable {generations : Record AttemptUsageGeneration}

theorem totalAttemptGenerationUsage_valid
    (totalled : totalAttemptGenerationUsage generations = .ok total) : ValidUsage total := by
  unfold totalAttemptGenerationUsage at totalled
  split at totalled
  · cases totalled
  · simp only [bind_eq_ok, validateAttemptUsageSnapshot_eq_ok] at totalled
    obtain ⟨baseline, ⟨baselineValid, rfl⟩, added⟩ := totalled
    exact addGenerationUsage_valid baselineValid added

def generationFences (generations : Record AttemptUsageGeneration) : List Nat :=
  generations.values.map AttemptUsageGeneration.fencingToken

theorem orderedGenerations_perm (generations : Record AttemptUsageGeneration) :
    (orderedGenerations generations).Perm generations.values :=
  List.mergeSort_perm _ _

theorem orderedGenerations_sorted (generations : Record AttemptUsageGeneration) :
    (orderedGenerations generations).Pairwise
      fun left right => left.fencingToken ≤ right.fencingToken := by
  have ordered : (generations.values.mergeSort fun left right =>
      decide (left.fencingToken ≤ right.fencingToken)).Pairwise
        fun left right => decide (left.fencingToken ≤ right.fencingToken) = true :=
    List.pairwise_mergeSort (fun _ _ _ => by simpa using Nat.le_trans)
      (fun _ _ => by simpa using Nat.le_total _ _) generations.values
  simpa [orderedGenerations] using ordered

/-- Generations with distinct fences have one list in fence order. -/
theorem orderedGenerations_eq {listed : List AttemptUsageGeneration}
    (permuted : listed.Perm generations.values)
    (sorted : listed.Pairwise fun left right => left.fencingToken ≤ right.fencingToken)
    (distinct : (listed.map AttemptUsageGeneration.fencingToken).Nodup) :
    orderedGenerations generations = listed := by
  have same := (orderedGenerations_perm generations).trans permuted.symm
  refine List.Perm.eq_of_pairwise ?_ (orderedGenerations_sorted generations) sorted same
  intro left right leftMember rightMember before behind
  exact List.inj_on_of_nodup_map distinct (same.mem_iff.mp leftMember) rightMember
    (Nat.le_antisymm before behind)

variable {leaseId : String}

/-- A generation with a later fence than all others is ordered last. -/
theorem orderedGenerations_set_last (distinct : (generationFences generations).Nodup)
    (absent : generations.get? leaseId = none)
    (later : ∀ other ∈ generations.values, other.fencingToken < generation.fencingToken) :
    orderedGenerations (generations.set leaseId generation) =
      orderedGenerations generations ++ [generation] := by
  have ordered := orderedGenerations_perm generations
  have values : (generations.set leaseId generation).values.Perm
      (generations.values ++ [generation]) := by
    refine (generations.values_set_perm leaseId generation).trans ?_
    rw [Record.values, Record.erase_of_absent absent]
    exact (List.perm_append_singleton _ _).symm
  have before : ∀ other ∈ orderedGenerations generations,
      other.fencingToken < generation.fencingToken :=
    fun other member => later other (ordered.mem_iff.mp member)
  refine orderedGenerations_eq ((ordered.append_right _).trans values.symm) ?_ ?_
  · refine List.pairwise_append.mpr
      ⟨orderedGenerations_sorted generations, List.pairwise_singleton _ _, ?_⟩
    intro left leftMember right rightMember
    obtain rfl := List.mem_singleton.mp rightMember
    exact Nat.le_of_lt (before left leftMember)
  · rw [List.map_append, List.nodup_append, (ordered.map _).nodup_iff]
    refine ⟨distinct, List.nodup_singleton _, ?_⟩
    intro first firstMember second secondMember
    obtain ⟨other, member, rfl⟩ := List.mem_map.mp firstMember
    obtain rfl : second = generation.fencingToken := by simpa using secondMember
    exact Nat.ne_of_lt (before other member)

theorem totalAttemptGenerationUsage_set_last {fencingToken : Nat}
    (totalled : totalAttemptGenerationUsage generations = .ok total)
    (distinct : (generationFences generations).Nodup) (absent : generations.get? leaseId = none)
    (later : ∀ other ∈ generations.values, other.fencingToken < fencingToken) :
    totalAttemptGenerationUsage
      (generations.set leaseId { fencingToken, baseline := total, reported := total }) =
        .ok total := by
  have valid := totalAttemptGenerationUsage_valid totalled
  unfold totalAttemptGenerationUsage at totalled ⊢
  rw [orderedGenerations_set_last distinct absent later]
  split at totalled
  · cases totalled
  next first rest ordered =>
    simp only [bind_eq_ok] at totalled
    obtain ⟨baseline, validated, added⟩ := totalled
    rw [ordered]
    simp only [List.cons_append, bind_eq_ok]
    refine ⟨baseline, validated, ?_⟩
    rw [← List.cons_append, addGenerationUsage_append, added]
    exact addGenerationUsage_idle valid valid rfl

/-- A single generation totals its baseline. -/
theorem totalAttemptGenerationUsage_first {fencingToken : Nat} {baseline : AttemptUsageSnapshot}
    (valid : ValidUsage baseline) :
    totalAttemptGenerationUsage
      (Record.set .empty leaseId { fencingToken, baseline, reported := baseline }) =
        .ok baseline := by
  have ordered : orderedGenerations
      (Record.set .empty leaseId { fencingToken, baseline, reported := baseline }) =
        orderedGenerations .empty ++ [{ fencingToken, baseline, reported := baseline }] :=
    orderedGenerations_set_last List.nodup_nil rfl (by simp)
  unfold totalAttemptGenerationUsage
  rw [ordered]
  simp only [orderedGenerations, Record.values_empty, List.mergeSort_nil, List.nil_append,
    bind_eq_ok, validateAttemptUsageSnapshot_eq_ok]
  exact ⟨baseline, ⟨valid, rfl⟩, addGenerationUsage_idle valid valid rfl⟩

/-- The receipt that a delivery removes from its attempt. -/
def deliveredReceipt (attemptId : String) (state : TaskRuntimeProjection)
    (event : OrchestrationEvent) : Option AttemptUsageReceipt :=
  if event.type = .attemptUsageDelivered ∧ event.aggregateId = attemptId then
    match dispatchIdentifier (event.field "receiptId") "attempt.usage_delivered.receiptId" with
    | .ok receiptId =>
        ((state.attempts.get? attemptId).bind AttemptRuntimeState.usageReceipts).bind
          fun receipts => receipts.get? receiptId
    | .error _ => none
  else none

/-- The receipts a history delivered for an attempt, in order. -/
def deliveredReceipts (attemptId : String)
    (history : List (TaskRuntimeProjection × OrchestrationEvent)) : List AttemptUsageReceipt :=
  history.filterMap fun entry => deliveredReceipt attemptId entry.1 entry.2

/-- The receipts of an attempt that await delivery. -/
def pendingReceipts (attempt : AttemptRuntimeState) : List AttemptUsageReceipt :=
  (attempt.usageReceipts.getD .empty).values

/-- What the receipts of a list charge for one component. -/
def charged (component : AttemptUsageSnapshot → Rat) (receipts : List AttemptUsageReceipt) :
    Rat :=
  (receipts.map fun receipt => component receipt.usage).sum

theorem charged_perm (component : AttemptUsageSnapshot → Rat)
    {left right : List AttemptUsageReceipt} (same : left.Perm right) :
    charged component left = charged component right :=
  (same.map _).sum_eq

@[simp]
theorem charged_cons (component : AttemptUsageSnapshot → Rat) (receipt : AttemptUsageReceipt)
    (receipts : List AttemptUsageReceipt) :
    charged component (receipt :: receipts) =
      component receipt.usage + charged component receipts := by
  simp [charged]

@[simp]
theorem charged_append (component : AttemptUsageSnapshot → Rat)
    (left right : List AttemptUsageReceipt) :
    charged component (left ++ right) = charged component left + charged component right := by
  simp [charged]

/-- What the accounting of an attempt satisfies, given what its delivered receipts charged. -/
structure AccountingConserved (attempt : AttemptRuntimeState)
    (delivered : (AttemptUsageSnapshot → Rat) → Rat) (accounting : AttemptUsageAccounting) :
    Prop where
  total : totalAttemptGenerationUsage accounting.generations = .ok accounting.total
  receipts : ∀ component ∈ billableComponents,
    component accounting.total = charged component (pendingReceipts attempt) + delivered component
  distinct : (generationFences accounting.generations).Nodup
  bounded : ∀ generation ∈ accounting.generations.values, ∃ lease, attempt.lease = some lease ∧
    generation.fencingToken ≤ lease.fencingToken

structure UsageConserved (attempt : AttemptRuntimeState)
    (delivered : (AttemptUsageSnapshot → Rat) → Rat) : Prop where
  /-- An attempt without accounting was never charged. -/
  unaccounted : attempt.usageAccounting = none → attempt.usageReceipts = none ∧
    ∀ component ∈ billableComponents, delivered component = 0
  accounted : ∀ accounting, attempt.usageAccounting = some accounting →
    AccountingConserved attempt delivered accounting

variable {attempt next : AttemptRuntimeState} {delivered : (AttemptUsageSnapshot → Rat) → Rat}

/-- A step that keeps the accounting and does not take the lease back keeps the invariant. -/
theorem UsageConserved.of_frame (conserved : UsageConserved attempt delivered)
    (sameAccounting : next.usageAccounting = attempt.usageAccounting)
    (sameReceipts : next.usageReceipts = attempt.usageReceipts)
    (grows : ∀ lease, attempt.lease = some lease → ∃ later, next.lease = some later ∧
      lease.fencingToken ≤ later.fencingToken) : UsageConserved next delivered where
  unaccounted absent := by
    rw [sameReceipts]
    exact conserved.unaccounted (sameAccounting ▸ absent)
  accounted accounting present := by
    have kept := conserved.accounted accounting (sameAccounting ▸ present)
    refine ⟨kept.total, ?_, kept.distinct, ?_⟩
    · simpa [pendingReceipts, sameReceipts] using kept.receipts
    · intro generation member
      obtain ⟨lease, held, bounded⟩ := kept.bounded generation member
      obtain ⟨later, holds, grown⟩ := grows lease held
      exact ⟨later, holds, Nat.le_trans bounded grown⟩

theorem component_of_unbilled {increase : AttemptUsageSnapshot} (valid : ValidUsage increase)
    (unbilled : billable increase = false) (billed : component ∈ billableComponents) :
    component increase = 0 := by
  have nonneg := valid.nonneg billed
  simp only [billable, Bool.or_eq_false_iff, decide_eq_false_iff_not, not_lt] at unbilled
  obtain ⟨⟨⟨⟨⟨input, output⟩, read⟩, write⟩, total⟩, cost⟩ := unbilled
  refine le_antisymm ?_ nonneg
  revert component
  simp only [forall_billable]
  exact ⟨fun _ => input, fun _ => output, fun _ => read, fun _ => write, fun _ => total,
    fun _ => cost⟩

variable {identity : AttemptUsageGenerationIdentity} {accounting : AttemptUsageAccounting}

/-- Accounting to a later total keeps every billable component pending or delivered. -/
theorem accountUsage_conserved (conserved : UsageConserved attempt delivered)
    (accounted : accountUsage attempt identity accounting event = .ok next)
    (total : totalAttemptGenerationUsage accounting.generations = .ok accounting.total)
    (distinct : (generationFences accounting.generations).Nodup)
    (bounded : ∀ generation ∈ accounting.generations.values, ∃ lease,
      attempt.lease = some lease ∧ generation.fencingToken ≤ lease.fencingToken) :
    UsageConserved next delivered := by
  obtain ⟨increase, increased, stored⟩ := accountUsage_spec accounted
  obtain ⟨-, -, increaseValid, difference⟩ := attemptUsageIncrease_eq_ok increased
  have grown : ∀ component ∈ billableComponents, component accounting.total =
      charged component (pendingReceipts attempt) + delivered component +
        component increase := by
    intro component billed
    rw [difference, component_combine billed]
    cases previous : attempt.usageAccounting with
    | none =>
        obtain ⟨unreceipted, undelivered⟩ := conserved.unaccounted previous
        have empty : component EMPTY_ATTEMPT_USAGE = 0 := by
          revert component
          rw [forall_billable]
          exact ⟨rfl, rfl, rfl, rfl, rfl, rfl⟩
        simp [pendingReceipts, unreceipted, undelivered component billed, charged, empty]
    | some earlier =>
        have kept := (conserved.accounted earlier previous).receipts component billed
        simp only [Option.map_some, Option.getD_some]
        linarith
  have sameLease : next.lease = attempt.lease := by
    rcases stored with ⟨-, rfl⟩ | ⟨receiptId, receipt, -, -, rfl⟩ <;> rfl
  have holds : ∀ generation ∈ accounting.generations.values, ∃ lease,
      next.lease = some lease ∧ generation.fencingToken ≤ lease.fencingToken := by
    rwa [sameLease]
  rcases stored with ⟨unbilled, rfl⟩ | ⟨receiptId, receipt, fresh, usage, rfl⟩
  · refine ⟨by simp, ?_⟩
    rintro _ ⟨⟩
    refine ⟨total, ?_, distinct, holds⟩
    intro component billed
    rw [grown component billed, component_of_unbilled increaseValid unbilled billed, add_zero]
    rfl
  · refine ⟨by simp, ?_⟩
    rintro _ ⟨⟩
    refine ⟨total, ?_, distinct, holds⟩
    intro component billed
    have pending : charged component
        (((attempt.usageReceipts.getD .empty).set receiptId receipt).values) =
          component increase + charged component (pendingReceipts attempt) := by
      rw [charged_perm _ (Record.values_set_perm _ _ _), charged_cons, usage, Record.values,
        Record.erase_of_absent fresh]
      rfl
    rw [grown component billed]
    simp only [pendingReceipts, Option.getD_some] at pending ⊢
    linarith

theorem mem_values_set {generation other : AttemptUsageGeneration}
    (member : other ∈ (generations.set leaseId generation).values) :
    other = generation ∨ other ∈ generations.values := by
  obtain ⟨key, found⟩ := Record.mem_values.mp member
  rw [Record.get?_set] at found
  split at found
  · exact Or.inl (Option.some.inj found).symm
  · exact Or.inr (Record.mem_values.mpr ⟨key, found⟩)

theorem findUsageGeneration_eq_ok {found : Option AttemptUsageGeneration}
    (searched : findUsageGeneration accounting identity = .ok found) :
    accounting.generations.get? identity.leaseId = found := by
  unfold findUsageGeneration at searched
  split at searched
  next absent =>
    obtain rfl := Except.ok.inj searched
    exact absent
  next generation present =>
    simp only [bind_eq_ok, exists_unit, pure_eq_ok] at searched
    rw [present, searched.2]

/-- Registering under the held lease adds nothing to the total. -/
theorem beginAttemptUsageGeneration_conserved {lease : AttemptLease} {baseline : Option AttemptUsageSnapshot} (conserved : UsageConserved attempt delivered)
    (held : attempt.lease = some lease)
    (current : lease.hasToken identity.leaseId identity.fencingToken = true)
    (begun : beginAttemptUsageGeneration attempt.usageAccounting identity baseline =
      .ok accounting) :
    totalAttemptGenerationUsage accounting.generations = .ok accounting.total ∧
      (generationFences accounting.generations).Nodup ∧
      ∀ generation ∈ accounting.generations.values, ∃ lease, attempt.lease = some lease ∧
        generation.fencingToken ≤ lease.fencingToken := by
  have token : lease.fencingToken = identity.fencingToken :=
    congrArg Prod.snd (hasToken_pair current)
  unfold beginAttemptUsageGeneration at begun
  split at begun
  next unaccounted =>
    split at begun
    · cases begun
    next initial =>
      simp only [registerGeneration, bind_eq_ok, pure_eq_ok,
        validateAttemptUsageSnapshot_eq_ok] at begun
      obtain ⟨_, ⟨valid, rfl⟩, rfl⟩ := begun
      refine ⟨totalAttemptGenerationUsage_first valid, ?_, ?_⟩
      · exact List.nodup_singleton _
      · intro generation member
        rcases mem_values_set member with rfl | impossible
        · exact ⟨lease, held, token.ge⟩
        · cases impossible
  next registered accounted =>
    have kept := conserved.accounted registered accounted
    simp only [bind_eq_ok] at begun
    obtain ⟨found, searched, begun⟩ := begun
    split at begun
    next generation =>
      have same : registered = accounting := by
        split at begun
        · exact pure_eq_ok.mp begun
        · simp only [bind_eq_ok, exists_unit, pure_eq_ok] at begun
          obtain ⟨-, -, -, same⟩ := begun
          exact same
      subst same
      exact ⟨kept.total, kept.distinct, kept.bounded⟩
    next =>
      have absent := findUsageGeneration_eq_ok searched
      simp only [registerGeneration, bind_eq_ok, exists_unit, pure_eq_ok, throwPlainIf_eq_ok,
        validateAttemptUsageSnapshot_eq_ok] at begun
      obtain ⟨-, unregistered, _, ⟨valid, rfl⟩, rfl⟩ := begun
      have later : ∀ other ∈ registered.generations.values,
          other.fencingToken < identity.fencingToken := by
        intro other member
        obtain ⟨found, holds, bounded⟩ := kept.bounded other member
        obtain rfl := Option.some.inj (held.symm.trans holds)
        have differs : other.fencingToken ≠ identity.fencingToken := by
          intro same
          exact unregistered (List.any_eq_true.mpr ⟨other, member, by simpa using same⟩)
        omega
      refine ⟨?_, ?_, ?_⟩
      · simpa [accounted] using
          totalAttemptGenerationUsage_set_last kept.total kept.distinct absent later
      · simp only [accounted, Option.map_some, Option.getD_some, generationFences]
        rw [((Record.values_set_perm _ _ _).map _).nodup_iff, List.map_cons, List.nodup_cons,
          Record.values, Record.erase_of_absent absent]
        refine ⟨?_, kept.distinct⟩
        intro member
        obtain ⟨other, present, same⟩ := List.mem_map.mp member
        exact absurd same (Nat.ne_of_lt (later other present))
      · intro generation member
        simp only [accounted, Option.map_some, Option.getD_some] at member
        rcases mem_values_set member with rfl | present
        · exact ⟨lease, held, token.ge⟩
        · exact kept.bounded generation present

/-- A recorded report keeps the fences and recomputes the total. -/
theorem recordAttemptGenerationUsage_conserved {previous accounting : AttemptUsageAccounting}
    (kept : AccountingConserved attempt delivered previous)
    (recorded : recordAttemptGenerationUsage previous identity usage = .ok accounting) :
    totalAttemptGenerationUsage accounting.generations = .ok accounting.total ∧
      (generationFences accounting.generations).Nodup ∧
      ∀ generation ∈ accounting.generations.values, ∃ lease, attempt.lease = some lease ∧
        generation.fencingToken ≤ lease.fencingToken := by
  simp only [recordAttemptGenerationUsage, bind_eq_ok] at recorded
  obtain ⟨found, searched, recorded⟩ := recorded
  split at recorded
  · cases recorded
  next generation =>
    have present := findUsageGeneration_eq_ok searched
    simp only [bind_eq_ok] at recorded
    obtain ⟨reported, -, delta, -, recorded⟩ := recorded
    split at recorded
    · obtain rfl := pure_eq_ok.mp recorded
      exact ⟨kept.total, kept.distinct, kept.bounded⟩
    · simp only [bind_eq_ok, pure_eq_ok] at recorded
      obtain ⟨total, totalled, rfl⟩ := recorded
      refine ⟨totalled, ?_, ?_⟩
      · have distinct := kept.distinct
        simp only [generationFences] at distinct ⊢
        rw [((Record.values_set_perm _ _ _).map _).nodup_iff]
        rw [((Record.values_perm_of_get? present).map _).nodup_iff] at distinct
        exact distinct
      · intro other member
        rcases mem_values_set member with rfl | earlier
        · exact kept.bounded generation (Record.mem_values.mpr ⟨_, present⟩)
        · exact kept.bounded other earlier

theorem AttemptStep.usageConserved
    (step : AttemptStep env.toDecoders event state attemptId attempt next)
    (undelivered : event.type ≠ .attemptUsageDelivered)
    (conserved : UsageConserved attempt delivered) : UsageConserved next delivered := by
  have grows : ∀ lease, attempt.lease = some lease →
      ∃ later, next.lease = some later ∧ lease.fencingToken ≤ later.fencingToken :=
    fun _ held => step.lease_grows held
  cases step with
  | changed aggregate change =>
      cases change with
      | usageRegistered kind held current begun accounted =>
          obtain ⟨total, distinct, bounded⟩ :=
            beginAttemptUsageGeneration_conserved conserved held current begun
          exact accountUsage_conserved conserved accounted total distinct bounded
      | usageRecorded kind registered recorded accounted =>
          obtain ⟨total, distinct, bounded⟩ := recordAttemptGenerationUsage_conserved
            (conserved.accounted _ registered) recorded
          exact accountUsage_conserved conserved accounted total distinct bounded
      | usageDelivered kind => exact absurd kind undelivered
      | started | renewed | modelMoved | thirdPartyAdmitted | receiptsDelivered | parentWrites
      | lifetime => exact conserved.of_frame rfl rfl grows
  | verified | pinned | granted | leased | checkpointed | suspended | resumed | ended | finished =>
      exact conserved.of_frame rfl rfl grows

theorem applyOrchestrationEvent_delivery (kind : event.type = .attemptUsageDelivered)
    (applied : applyOrchestrationEvent env state event = .ok after) :
    ∃ attempt receipts receiptId receipt,
      dispatchIdentifier (event.field "receiptId") "attempt.usage_delivered.receiptId" =
        .ok receiptId ∧
      state.attempts.get? event.aggregateId = some attempt ∧
      attempt.usageReceipts = some receipts ∧ receipts.get? receiptId = some receipt ∧
      after.attempts = state.attempts.set event.aggregateId
        { attempt with usageReceipts := some (receipts.erase receiptId) } := by
  simp only [applyOrchestrationEvent, kind, applyAttemptUsageDelivered, bind_eq_ok, exists_unit,
    pure_eq_ok, orThrow_eq_ok, assertEventAggregateId_eq_ok, Option.filter_eq_some_iff] at applied
  obtain ⟨attemptId, -, rfl, receiptId, named, attempt, present, receipts, ⟨pending, listed⟩,
    rfl⟩ := applied
  obtain ⟨receipt, found⟩ := Option.isSome_iff_exists.mp listed
  exact ⟨attempt, receipts, receiptId, receipt, named, present, pending, found, rfl⟩

variable {history : List (TaskRuntimeProjection × OrchestrationEvent)}

theorem deliveredReceipts_append :
    deliveredReceipts attemptId (history ++ [(state, event)]) =
      deliveredReceipts attemptId history ++
        (deliveredReceipt attemptId state event).toList := by
  cases given : deliveredReceipt attemptId state event <;>
    simp [deliveredReceipts, List.filterMap_append, given]

theorem UsageConserved.deliver {receipts : Record AttemptUsageReceipt} {receiptId : String}
    {receipt : AttemptUsageReceipt} {history : List AttemptUsageReceipt}
    (conserved : UsageConserved attempt fun component => charged component history)
    (pending : attempt.usageReceipts = some receipts)
    (present : receipts.get? receiptId = some receipt) :
    UsageConserved { attempt with usageReceipts := some (receipts.erase receiptId) }
      fun component => charged component (history ++ [receipt]) where
  unaccounted absent := by
    have unreceipted := (conserved.unaccounted absent).1
    rw [pending] at unreceipted
    cases unreceipted
  accounted accounting registered := by
    have kept := conserved.accounted accounting registered
    refine ⟨kept.total, ?_, kept.distinct, kept.bounded⟩
    intro component billed
    have split := charged_perm component (Record.values_perm_of_get? present)
    have before := kept.receipts component billed
    simp only [pendingReceipts, pending, Option.getD_some, charged_cons] at before split ⊢
    rw [charged_append, charged_cons]
    simp only [charged, List.map_nil, List.sum_nil] at before split ⊢
    linarith

/-- The usage invariant of the attempt filed under an identity, after a history. -/
def UsageConservedAt (attemptId : String)
    (history : List (TaskRuntimeProjection × OrchestrationEvent))
    (attempt : Option AttemptRuntimeState) : Prop :=
  match attempt with
  | none => deliveredReceipts attemptId history = []
  | some present =>
      UsageConserved present fun component =>
        charged component (deliveredReceipts attemptId history)

theorem AttemptEffect.usageConservedAt {source target : Option AttemptRuntimeState}
    (undelivered : event.type ≠ .attemptUsageDelivered)
    (effect : AttemptEffect env.toDecoders event state attemptId source target)
    (conserved : UsageConservedAt attemptId history source) :
    UsageConservedAt attemptId history target := by
  cases effect with
  | unchanged => exact conserved
  | queued =>
      have none : deliveredReceipts attemptId history = [] := conserved
      refine ⟨fun _ => ⟨rfl, fun component _ => ?_⟩, ?_⟩
      · simp [none, charged]
      · rintro _ ⟨⟩
  | stepped step => exact step.usageConserved undelivered conserved

/-- Every applied event conserves the usage of every attempt. -/
theorem Applied.usageConservedAt {before : TaskRuntimeProjection} (keyed : WellKeyed before)
    (conserved : UsageConservedAt attemptId history (before.attempts.get? attemptId))
    (applied : Applied env before event after) :
    UsageConservedAt attemptId (history ++ [(before, event)])
      (after.attempts.get? attemptId) := by
  by_cases kind : event.type = .attemptUsageDelivered
  · obtain ⟨-, state, taken, rfl⟩ := applied
    obtain ⟨attempt, receipts, receiptId, receipt, named, present, pending, found, attempts⟩ :=
      applyOrchestrationEvent_delivery kind taken
    rw [attempts]
    by_cases target : attemptId = event.aggregateId
    · subst target
      have delivered : deliveredReceipt event.aggregateId before event = some receipt := by
        simp [deliveredReceipt, kind, named, present, pending, found]
      rw [present] at conserved
      simp only [Record.get?_set_self, UsageConservedAt, deliveredReceipts_append, delivered,
        Option.toList_some]
      exact UsageConserved.deliver conserved pending found
    · have undelivered : deliveredReceipt attemptId before event = none := by
        simp [deliveredReceipt, Ne.symm target]
      rw [Record.get?_set_of_ne target]
      simpa only [UsageConservedAt, deliveredReceipts_append, undelivered, Option.toList_none,
        List.append_nil] using conserved
  · have same : deliveredReceipts attemptId (history ++ [(before, event)]) =
        deliveredReceipts attemptId history := by
      simp [deliveredReceipts_append, deliveredReceipt, kind]
    have kept := holds_of_path (UsageConservedAt attemptId history)
      (applied.attempt_effects keyed attemptId)
      (fun ⟨_, effect⟩ => effect.usageConservedAt kind) conserved
    simpa only [UsageConservedAt, same] using kept

theorem AcceptedLog.usageConservedAt (run : AcceptedLog env history after) (attemptId : String) :
    UsageConservedAt attemptId history (after.attempts.get? attemptId) :=
  run.invariant (fun history state =>
      UsageConservedAt attemptId history (state.attempts.get? attemptId))
    (by simp [UsageConservedAt, emptyProjection, deliveredReceipts])
    fun earlier conserved applied =>
      applied.usageConservedAt (AcceptedLog.wellKeyed earlier) conserved

/-- Usage receipts conserve the accounted usage: over every accepted log the total of an attempt
is the total of its generations, and each billable component of it is the sum over the receipts
still pending and the receipts already delivered. -/
theorem usage_receipts_conserve_accounted_usage (env : Environment)
    (events : List OrchestrationEvent) (projection : TaskRuntimeProjection)
    (accepted : projectOrchestrationEvents env events = .ok projection) (attemptId : String)
    (attempt : AttemptRuntimeState) (accounting : AttemptUsageAccounting)
    (present : projection.attempts.get? attemptId = some attempt)
    (accounted : attempt.usageAccounting = some accounting) :
    totalAttemptGenerationUsage accounting.generations = .ok accounting.total ∧
      ∀ component ∈ billableComponents,
        component accounting.total =
          ((pendingReceipts attempt).map fun receipt => component receipt.usage).sum +
          ((deliveredReceipts attemptId (appliedSteps env events emptyProjection)).map
            fun receipt => component receipt.usage).sum := by
  have run : AcceptedLog env (appliedSteps env events emptyProjection) projection :=
    reduceOrchestrationEvents_execution accepted
  have conserved := run.usageConservedAt attemptId
  rw [present] at conserved
  have kept := UsageConserved.accounted conserved accounting accounted
  exact ⟨kept.total, kept.receipts⟩

/-- A usage report of some input tokens. -/
def givenUsage (inputTokens : Rat) : Json :=
  .obj [("toolCalls", .num 0), ("inputTokens", .num inputTokens), ("outputTokens", .num 0),
    ("cacheReadTokens", .num 0), ("cacheWriteTokens", .num 0), ("totalTokens", .num inputTokens),
    ("costUsd", .num 0), ("activeWallClockMs", .num 0)]

/-- Calls that account usage above a baseline. -/
def accountedUsageCalls : List Call :=
  [givenCall "1" (givenObjective "objective" []), givenCall "2" (givenTask "objective" "task" []),
    givenCall "3" (givenAttempt "task"),
    givenCall "4" (givenGrant "objective" "task" "attempt-3"),
    givenCall "5" (givenLeasing "attempt-3" none),
    givenCall "6" (.startAttempt "attempt-3" "lease-5" 1),
    givenCall "7" (.beginAttemptUsage "attempt-3" "lease-5" 1 (some (givenUsage 2))),
    givenCall "8" (.recordAttemptUsage "attempt-3" "lease-5" 1 (givenUsage 7))]

/-- The accounted total of the given calls is what their generations total. -/
theorem accounted_usage_is_conserved : ∃ events projection attempt accounting,
    projectOrchestrationEvents givenEnvironment events = .ok projection ∧
      projection.attempts.get? "attempt-3" = some attempt ∧
        attempt.usageAccounting = some accounting ∧ accounting.total.inputTokens = 7 ∧
          totalAttemptGenerationUsage accounting.generations = .ok accounting.total := by
  obtain ⟨projection, run, reached, accounted⟩ := runtimeRun_of_calls givenEnvironment
    accountedUsageCalls
    (fun projection =>
      (projection.attempts.get? "attempt-3").any fun attempt =>
        attempt.usageAccounting.any fun accounting => accounting.total.inputTokens = 7)
    (by decide +kernel)
  obtain ⟨events, accepted⟩ := reached.events
  simp only [Option.any_eq_true, decide_eq_true_eq] at accounted
  obtain ⟨attempt, present, accounting, stored, tokens⟩ := accounted
  have conserved := usage_receipts_conserve_accounted_usage givenEnvironment events projection
    accepted "attempt-3" attempt accounting present stored
  exact ⟨events, projection, attempt, accounting, accepted, present, stored, tokens, conserved.1⟩

end PiAdaptative.TaskRuntime
