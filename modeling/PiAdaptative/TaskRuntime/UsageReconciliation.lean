import PiAdaptative.Foundations.OrderedMap
import PiAdaptative.TaskRuntime.UsageConservation

/-!
# Reconciling usage publications

Gateways of one attempt may each hold an unwritten charge.  Their publications are merged by
generation: a generation keeps its fence and baseline, and its reports are joined component by
component.  Which reconciliations are defined, and what they give, is read off the merged entries.
-/

namespace PiAdaptative.TaskRuntime

/-- `reconcileAttemptUsage`: component maxima of two cumulative views. -/
def reconcileAttemptUsage (checkpoint transcript : AttemptUsageSnapshot) :
    Outcome AttemptUsageSnapshot := do
  let _ ← validateAttemptUsageSnapshot checkpoint "attempt checkpoint usage"
  let _ ← validateAttemptUsageSnapshot transcript "attempt transcript usage"
  validateAttemptUsageSnapshot (checkpoint.combine max transcript)

/-- The generations merged so far and the lease of each of their fences. -/
structure UsageRegistry where
  generations : Record AttemptUsageGeneration
  leasesByFence : OrderedMap Nat String

/-- A report joined with what its generation is known to have reported. -/
def reconcileReport (existing : Option AttemptUsageGeneration) (fencingToken : Nat)
    (baseline reported : AttemptUsageSnapshot) : Outcome AttemptUsageSnapshot :=
  match existing with
  | none => .ok reported
  | some existing => do
      throwPlainIf (existing.fencingToken ≠ fencingToken ∨ existing.baseline ≠ baseline)
        "Usage publication has conflicting generation provenance."
      reconcileAttemptUsage existing.reported reported

def mergeGeneration (registry : UsageRegistry) (entry : String × AttemptUsageGeneration) :
    Outcome UsageRegistry := do
  let generation := entry.2
  throwPlainIf (entry.1 = "" ∨
      ¬(1 ≤ generation.fencingToken ∧ generation.fencingToken ≤ 9007199254740991))
    "Usage publication has an invalid generation identity."
  throwPlainIf
    ((registry.leasesByFence.get? generation.fencingToken).any (· ≠ entry.1) = true)
    "Usage generation fence is already registered to another lease."
  let baseline ← validateAttemptUsageSnapshot generation.baseline
  let reported ← validateAttemptUsageSnapshot generation.reported
  let joined ← reconcileReport (registry.generations.get? entry.1) generation.fencingToken
    baseline reported
  return {
    generations := registry.generations.set entry.1
      { fencingToken := generation.fencingToken, baseline, reported := joined }
    leasesByFence := registry.leasesByFence.set generation.fencingToken entry.1 }

/-- Merge one publication, whose total must be the one of its generations. -/
def mergePublication (registry : UsageRegistry) (accounting : AttemptUsageAccounting) :
    Outcome UsageRegistry := do
  let total ← validateAttemptUsageSnapshot accounting.total
  let derived ← totalAttemptGenerationUsage accounting.generations
  throwPlainIf (total ≠ derived) "Usage publication total does not match its generations."
  accounting.generations.entries.foldlM mergeGeneration registry

def reconcileAttemptUsageAccounting (previous : Option AttemptUsageAccounting)
    (incoming : AttemptUsageAccounting) : Outcome AttemptUsageAccounting := do
  let registry ← (previous.toList ++ [incoming]).foldlM mergePublication
    { generations := .empty, leasesByFence := .empty }
  let total ← totalAttemptGenerationUsage registry.generations
  return { total, generations := registry.generations }

/-- Components that must be safe integers. -/
def usageCounters : List (AttemptUsageSnapshot → Rat) :=
  [AttemptUsageSnapshot.toolCalls, AttemptUsageSnapshot.inputTokens,
    AttemptUsageSnapshot.outputTokens, AttemptUsageSnapshot.cacheReadTokens,
    AttemptUsageSnapshot.cacheWriteTokens, AttemptUsageSnapshot.totalTokens]

/-- Components that must be finite. -/
def usageMeasures : List (AttemptUsageSnapshot → Rat) :=
  [AttemptUsageSnapshot.costUsd, AttemptUsageSnapshot.activeWallClockMs]

variable {left right : AttemptUsageSnapshot}

theorem usage_ext
    (same : ∀ component ∈ usageCounters ++ usageMeasures, component left = component right) :
    left = right := by
  simp only [usageCounters, usageMeasures, List.cons_append, List.nil_append, List.forall_mem_cons]
    at same
  cases left
  simp_all

theorem usage_combine {component : AttemptUsageSnapshot → Rat}
    (known : component ∈ usageCounters ++ usageMeasures) (operation : Rat → Rat → Rat)
    (left right : AttemptUsageSnapshot) :
    component (left.combine operation right) = operation (component left) (component right) := by
  revert component
  simp [usageCounters, usageMeasures, AttemptUsageSnapshot.combine]

theorem validUsage_iff {usage : AttemptUsageSnapshot} :
    ValidUsage usage ↔
      (∀ counter ∈ usageCounters, isSafeInteger (counter usage) = true) ∧
        ∀ component ∈ usageCounters ++ usageMeasures, 0 ≤ component usage := by
  unfold ValidUsage
  simp only [validateAttemptUsageSnapshot, usageCounter, usageMeasure, bind_eq_ok, exists_unit,
    throwPlainIf_eq_ok, pure_eq_ok, not_or, not_lt, Bool.not_eq_false, forall_const, and_true,
    usageCounters, usageMeasures, List.cons_append, List.nil_append, List.forall_mem_cons,
    List.not_mem_nil, false_implies]
  tauto

theorem components_eq_map (usage : AttemptUsageSnapshot) :
    usage.components = (usageCounters ++ usageMeasures).map fun component => component usage := rfl

/-- An increase is defined between valid snapshots with a valid difference. -/
theorem attemptUsageIncrease_iff {reported previous increase : AttemptUsageSnapshot} :
    attemptUsageIncrease reported previous = .ok increase ↔
      ValidUsage reported ∧ ValidUsage previous ∧ ValidUsage increase ∧
        increase = reported.combine (· - ·) previous := by
  refine ⟨attemptUsageIncrease_eq_ok, ?_⟩
  rintro ⟨reportedValid, previousValid, increaseValid, rfl⟩
  have grows : ¬(reported.combine (· - ·) previous).components.any
      (fun quantity => quantity < 0) = true := by
    rw [components_eq_map, List.any_map, List.any_eq_true]
    rintro ⟨component, known, negative⟩
    exact absurd ((validUsage_iff.mp increaseValid).2 component known)
      (by simpa using negative)
  simp only [attemptUsageIncrease, bind_eq_ok, exists_unit, validateAttemptUsageSnapshot_eq_ok,
    throwPlainIf_eq_ok]
  exact ⟨_, ⟨reportedValid, rfl⟩, _, ⟨previousValid, rfl⟩, grows, increaseValid, trivial⟩

theorem validUsage_max (first : ValidUsage left) (second : ValidUsage right) :
    ValidUsage (left.combine max right) := by
  rw [validUsage_iff] at first second ⊢
  refine ⟨fun counter known => ?_, fun component known => ?_⟩
  · rw [usage_combine (List.mem_append_left _ known)]
    rcases max_choice (counter left) (counter right) with chosen | chosen <;> rw [chosen]
    · exact first.1 counter known
    · exact second.1 counter known
  · rw [usage_combine known]
    exact le_max_of_le_left (first.2 component known)

theorem reconcileAttemptUsage_of_valid (first : ValidUsage left) (second : ValidUsage right) :
    reconcileAttemptUsage left right = .ok (left.combine max right) := by
  simp only [reconcileAttemptUsage, bind_eq_ok, validateAttemptUsageSnapshot_eq_ok]
  exact ⟨_, ⟨first, rfl⟩, _, ⟨second, rfl⟩, validUsage_max first second, trivial⟩

/-- Two reports of one generation joined. -/
def joinReports (left right : AttemptUsageGeneration) : AttemptUsageGeneration :=
  { left with reported := left.reported.combine max right.reported }

/-- Merge an entry into generations, without the checks. -/
def mergeEntry (generations : Record AttemptUsageGeneration)
    (entry : String × AttemptUsageGeneration) : Record AttemptUsageGeneration :=
  generations.set entry.1
    (((generations.get? entry.1).map (joinReports · entry.2)).getD entry.2)

/-- The generations of two publications merged, without the checks. -/
def mergedGenerations (left right : AttemptUsageAccounting) : Record AttemptUsageGeneration :=
  (left.generations.entries ++ right.generations.entries).foldl mergeEntry .empty

/-- What a single published generation must satisfy. -/
structure Attributable (entry : String × AttemptUsageGeneration) : Prop where
  named : entry.1 ≠ ""
  positive : 1 ≤ entry.2.fencingToken
  safe : entry.2.fencingToken ≤ 9007199254740991
  baseline : ValidUsage entry.2.baseline
  reported : ValidUsage entry.2.reported

/-- Two entries name the same lease exactly when they have the same fence, and then the same
baseline. -/
def Agrees (first second : String × AttemptUsageGeneration) : Prop :=
  (first.1 = second.1 ↔ first.2.fencingToken = second.2.fencingToken) ∧
    (first.1 = second.1 → first.2.baseline = second.2.baseline)

/-- Two entries that differ at most in what was reported. -/
def SameProvenance (first second : String × AttemptUsageGeneration) : Prop :=
  first.1 = second.1 ∧ first.2.fencingToken = second.2.fencingToken ∧
    first.2.baseline = second.2.baseline

theorem Agrees.symm {first second : String × AttemptUsageGeneration}
    (agrees : Agrees first second) : Agrees second first :=
  ⟨⟨fun same => (agrees.1.mp same.symm).symm, fun same => (agrees.1.mpr same.symm).symm⟩,
    fun same => (agrees.2 same.symm).symm⟩

theorem Agrees.refl (entry : String × AttemptUsageGeneration) : Agrees entry entry :=
  ⟨⟨fun _ => rfl, fun _ => rfl⟩, fun _ => rfl⟩

theorem SameProvenance.agrees_iff {first second other : String × AttemptUsageGeneration}
    (same : SameProvenance first second) : Agrees first other ↔ Agrees second other := by
  obtain ⟨lease, fence, baseline⟩ := same
  unfold Agrees
  rw [lease, fence, baseline]

theorem get?_mergeEntry (generations : Record AttemptUsageGeneration)
    (entry : String × AttemptUsageGeneration) (leaseId : String) :
    (mergeEntry generations entry).get? leaseId =
      if leaseId = entry.1 then (generations.get? leaseId).merge joinReports (some entry.2)
      else generations.get? leaseId := by
  rw [mergeEntry, Record.get?_set]
  split
  next same =>
    rw [same]
    cases generations.get? entry.1 <;> rfl
  next => rfl

variable {generations : Record AttemptUsageGeneration}
variable {entries : List (String × AttemptUsageGeneration)}

/-- Merging entries of distinct leases joins each with what was known of its lease. -/
theorem get?_foldl_mergeEntry (distinct : (entries.map Prod.fst).Nodup) (leaseId : String) :
    (entries.foldl mergeEntry generations).get? leaseId =
      (generations.get? leaseId).merge joinReports (entries.lookup leaseId) := by
  induction entries generalizing generations with
  | nil => simp
  | cons entry entries ih =>
      obtain ⟨outside, rest⟩ := List.nodup_cons.mp distinct
      rw [List.foldl_cons, ih rest, get?_mergeEntry, List.lookup_cons]
      by_cases same : leaseId = entry.1
      · have absent : entries.lookup leaseId = none := by
          rw [List.lookup_eq_none_iff]
          intro other member
          have differs : leaseId ≠ other.1 := by
            rintro rfl
            exact outside (same ▸ List.mem_map_of_mem member)
          simpa using differs
        rw [if_pos same, absent, Option.merge_none_right]
        simp [same]
      · have differs : (leaseId == entry.1) = false := by simpa using same
        rw [if_neg same, differs]

/-- A lease of two merged publications holds what either attributes to it, joined. -/
theorem get?_mergedGenerations (left right : AttemptUsageAccounting) (leaseId : String) :
    (mergedGenerations left right).get? leaseId =
      (left.generations.get? leaseId).merge joinReports (right.generations.get? leaseId) := by
  rw [mergedGenerations, List.foldl_append, get?_foldl_mergeEntry right.generations.distinct,
    get?_foldl_mergeEntry left.generations.distinct, Record.get?_empty, Option.merge_none_left]
  rfl

/-- The index of fences is the one of the generations, whose reports are valid. -/
structure UsageRegistry.Indexed (registry : UsageRegistry) : Prop where
  fences : ∀ fence leaseId, registry.leasesByFence.get? fence = some leaseId ↔
    ∃ generation, registry.generations.get? leaseId = some generation ∧
      generation.fencingToken = fence
  reported : ∀ entry ∈ registry.generations.entries, ValidUsage entry.2.reported

/-- The registry with an entry merged, without the checks. -/
def UsageRegistry.merge (registry : UsageRegistry) (entry : String × AttemptUsageGeneration) :
    UsageRegistry where
  generations := mergeEntry registry.generations entry
  leasesByFence := registry.leasesByFence.set entry.2.fencingToken entry.1

def UsageRegistry.AgreesWith (registry : UsageRegistry)
    (entry : String × AttemptUsageGeneration) : Prop :=
  ∀ known ∈ registry.generations.entries, Agrees known entry

variable {entry : String × AttemptUsageGeneration} {registry : UsageRegistry}

theorem reconcileReport_eq_ok (indexed : registry.Indexed) (valid : ValidUsage entry.2.reported)
    {joined : AttemptUsageSnapshot} :
    reconcileReport (registry.generations.get? entry.1) entry.2.fencingToken entry.2.baseline
        entry.2.reported = .ok joined ↔
      (∀ generation, registry.generations.get? entry.1 = some generation →
        generation.fencingToken = entry.2.fencingToken ∧
          generation.baseline = entry.2.baseline) ∧
        joined = (((registry.generations.get? entry.1).map (joinReports · entry.2)).getD
          entry.2).reported := by
  cases found : registry.generations.get? entry.1 with
  | none =>
      simp only [reconcileReport, Except.ok.injEq, Option.map_none, Option.getD_none, reduceCtorEq,
        false_implies, implies_true, true_and]
      exact eq_comm
  | some generation =>
      have known := indexed.reported _ (Record.get?_eq_some.mp found)
      simp only [reconcileReport, bind_eq_ok, exists_unit, throwPlainIf_eq_ok, not_or, not_not,
        reconcileAttemptUsage_of_valid known valid, Except.ok.injEq, Option.map_some,
        Option.getD_some, joinReports, Option.some.injEq, forall_eq']
      exact and_congr_right fun _ => eq_comm

variable {registry next : UsageRegistry}

/-- A published generation is merged exactly when it is attributable and agrees with all others. -/
theorem mergeGeneration_eq_ok (indexed : registry.Indexed) :
    mergeGeneration registry entry = .ok next ↔
      Attributable entry ∧ registry.AgreesWith entry ∧ next = registry.merge entry := by
  have unshared : ((registry.leasesByFence.get? entry.2.fencingToken).any (· ≠ entry.1) ≠ true) ↔
      ∀ known ∈ registry.generations.entries, known.2.fencingToken = entry.2.fencingToken →
        known.1 = entry.1 := by
    rw [ne_eq, Option.any_eq_true]
    constructor
    · rintro alone ⟨leaseId, generation⟩ member same
      by_contra differs
      exact alone ⟨leaseId, (indexed.fences _ _).mpr
        ⟨generation, Record.get?_eq_some.mpr member, same⟩, by simpa using differs⟩
    · rintro alone ⟨leaseId, found, differs⟩
      obtain ⟨generation, held, same⟩ := (indexed.fences _ _).mp found
      exact absurd (alone _ (Record.get?_eq_some.mp held) same) (by simpa using differs)
  simp only [mergeGeneration, bind_eq_ok, exists_unit, throwPlainIf_eq_ok,
    validateAttemptUsageSnapshot_eq_ok, pure_eq_ok]
  constructor
  · rintro ⟨identified, alone, _, ⟨baseline, rfl⟩, _, ⟨reported, rfl⟩, joined, reconciled, rfl⟩
    obtain ⟨provenance, rfl⟩ := (reconcileReport_eq_ok indexed reported).mp reconciled
    rw [not_or, not_not] at identified
    refine ⟨⟨identified.1, identified.2.1, identified.2.2, baseline, reported⟩, ?_, ?_⟩
    · rintro ⟨leaseId, generation⟩ member
      have sameFence := unshared.mp alone _ member
      refine ⟨⟨?_, sameFence⟩, ?_⟩
      · rintro rfl
        exact (provenance _ (Record.get?_eq_some.mpr member)).1
      · rintro rfl
        exact (provenance _ (Record.get?_eq_some.mpr member)).2
    · rw [UsageRegistry.merge, mergeEntry]
      cases found : registry.generations.get? entry.1 with
      | none => rfl
      | some generation =>
          obtain ⟨fence, baseline⟩ := provenance generation found
          simp only [Option.map_some, Option.getD_some, joinReports, ← fence, ← baseline]
  · rintro ⟨attributable, agrees, rfl⟩
    refine ⟨?_, unshared.mpr fun known member => (agrees known member).1.mpr, _,
      ⟨attributable.baseline, rfl⟩, _, ⟨attributable.reported, rfl⟩, _,
      (reconcileReport_eq_ok indexed attributable.reported).mpr ⟨?_, rfl⟩, ?_⟩
    · rw [not_or, not_not]
      exact ⟨attributable.named, attributable.positive, attributable.safe⟩
    · intro generation found
      have known := agrees _ (Record.get?_eq_some.mp found)
      exact ⟨known.1.mp rfl, known.2 rfl⟩
    · rw [UsageRegistry.merge, mergeEntry]
      cases found : registry.generations.get? entry.1 with
      | none => rfl
      | some generation =>
          have known := agrees _ (Record.get?_eq_some.mp found)
          simp only [Option.map_some, Option.getD_some, joinReports, ← known.1.mp rfl,
            ← known.2 rfl]

theorem provenance_of_mergeEntry {entry merged : String × AttemptUsageGeneration}
    (agrees : ∀ known ∈ generations.entries, Agrees known entry)
    (member : merged ∈ (mergeEntry generations entry).entries) :
    SameProvenance entry merged ∨ ∃ known ∈ generations.entries, SameProvenance known merged := by
  obtain ⟨leaseId, generation⟩ := merged
  have found := Record.get?_eq_some.mpr member
  rw [get?_mergeEntry] at found
  split at found
  next same =>
    subst same
    left
    cases held : generations.get? entry.1 with
    | none =>
        rw [held, Option.merge_none_left, Option.some.injEq] at found
        subst found
        exact ⟨rfl, rfl, rfl⟩
    | some earlier =>
        have known := agrees _ (Record.get?_eq_some.mp held)
        rw [held, Option.merge_some_some, Option.some.injEq] at found
        subst found
        exact ⟨rfl, (known.1.mp rfl).symm, (known.2 rfl).symm⟩
  next => exact .inr ⟨_, Record.get?_eq_some.mp found, rfl, rfl, rfl⟩

/-- The provenance of the added entry, and of each entry that was there, is that of a merged one. -/
theorem mergeEntry_provenance (agrees : ∀ known ∈ generations.entries, Agrees known entry) :
    (∃ merged ∈ (mergeEntry generations entry).entries, SameProvenance entry merged) ∧
      ∀ known ∈ generations.entries,
        ∃ merged ∈ (mergeEntry generations entry).entries, SameProvenance known merged := by
  have present : ∀ leaseId generation,
      (mergeEntry generations entry).get? leaseId = some generation →
      (leaseId, generation) ∈ (mergeEntry generations entry).entries :=
    fun _ _ => Record.get?_eq_some.mp
  have added := get?_mergeEntry generations entry entry.1
  rw [if_pos rfl] at added
  constructor
  · cases held : generations.get? entry.1 with
    | none =>
        rw [held] at added
        exact ⟨_, present _ _ added, rfl, rfl, rfl⟩
    | some earlier =>
        have known := agrees _ (Record.get?_eq_some.mp held)
        rw [held] at added
        exact ⟨_, present _ _ added, rfl, (known.1.mp rfl).symm, (known.2 rfl).symm⟩
  · rintro ⟨leaseId, generation⟩ member
    have held := Record.get?_eq_some.mpr member
    by_cases same : leaseId = entry.1
    · subst same
      rw [held] at added
      exact ⟨_, present _ _ added, rfl, rfl, rfl⟩
    · refine ⟨_, present leaseId generation ?_, rfl, rfl, rfl⟩
      rw [get?_mergeEntry, if_neg same, held]

theorem UsageRegistry.Indexed.merge (indexed : registry.Indexed)
    (valid : ValidUsage entry.2.reported) (agrees : registry.AgreesWith entry) :
    (registry.merge entry).Indexed := by
  refine ⟨fun fence leaseId => ?_, ?_⟩
  · simp only [UsageRegistry.merge, OrderedMap.get?_set]
    by_cases sameLease : leaseId = entry.1
    · subst sameLease
      obtain ⟨⟨merged, present, lease, sameFence, -⟩, -⟩ := mergeEntry_provenance agrees
      have found : (mergeEntry registry.generations entry).get? entry.1 = some merged.2 :=
        Record.get?_eq_some.mpr (by rw [lease]; exact present)
      simp only [found, Option.some.injEq, exists_eq_left', ← sameFence]
      split
      next same => simp [same]
      next differs =>
        refine ⟨fun held => ?_, fun same => absurd same.symm differs⟩
        obtain ⟨generation, holds, same⟩ := (indexed.fences _ _).mp held
        have known := agrees _ (Record.get?_eq_some.mp holds)
        exact (known.1.mp rfl).symm.trans same
    · rw [get?_mergeEntry, if_neg sameLease]
      split
      next same =>
        refine ⟨fun held => absurd (Option.some.inj held).symm sameLease, ?_⟩
        rintro ⟨generation, holds, fences⟩
        have known := agrees _ (Record.get?_eq_some.mp holds)
        exact absurd (known.1.mpr (fences.trans same)) sameLease
      next => exact indexed.fences fence leaseId
  · rintro ⟨leaseId, generation⟩ member
    have found := Record.get?_eq_some.mpr member
    simp only [UsageRegistry.merge, get?_mergeEntry] at found
    split at found
    next same =>
      cases held : registry.generations.get? leaseId with
      | none =>
          rw [held, Option.merge_none_left, Option.some.injEq] at found
          exact found ▸ valid
      | some earlier =>
          rw [held, Option.merge_some_some, Option.some.injEq] at found
          exact found ▸ validUsage_max (indexed.reported _ (Record.get?_eq_some.mp held)) valid
    next => exact indexed.reported _ (Record.get?_eq_some.mp found)

theorem UsageRegistry.agreesWith_merge {entry other : String × AttemptUsageGeneration}
    (agrees : registry.AgreesWith entry) :
    (registry.merge entry).AgreesWith other ↔ registry.AgreesWith other ∧ Agrees entry other := by
  constructor
  · intro later
    obtain ⟨⟨merged, present, same⟩, kept⟩ := mergeEntry_provenance agrees
    refine ⟨fun known member => ?_, same.agrees_iff.mpr (later merged present)⟩
    obtain ⟨found, held, sameKnown⟩ := kept known member
    exact sameKnown.agrees_iff.mpr (later found held)
  · rintro ⟨earlier, added⟩ merged member
    rcases provenance_of_mergeEntry agrees member with same | ⟨known, held, same⟩
    · exact same.agrees_iff.mp added
    · exact same.agrees_iff.mp (earlier known held)

theorem foldlM_mergeGeneration_eq_ok (indexed : registry.Indexed) :
    entries.foldlM mergeGeneration registry = .ok next ↔
      (∀ entry ∈ entries, Attributable entry ∧ registry.AgreesWith entry) ∧
        entries.Pairwise Agrees ∧ next = entries.foldl UsageRegistry.merge registry := by
  induction entries generalizing registry with
  | nil => simpa using pure_eq_ok.trans eq_comm
  | cons entry entries ih =>
      simp only [List.foldlM_cons, bind_eq_ok, mergeGeneration_eq_ok indexed, List.foldl_cons,
        List.forall_mem_cons, List.pairwise_cons]
      constructor
      · rintro ⟨_, ⟨attributable, agrees, rfl⟩, folded⟩
        obtain ⟨each, apart, rfl⟩ :=
          (ih (indexed.merge attributable.reported agrees)).mp folded
        have split := fun other member =>
          (UsageRegistry.agreesWith_merge agrees).mp (each other member).2
        exact ⟨⟨⟨attributable, agrees⟩, fun other member =>
          ⟨(each other member).1, (split other member).1⟩⟩,
          ⟨fun other member => (split other member).2, apart⟩, rfl⟩
      · rintro ⟨⟨⟨attributable, agrees⟩, each⟩, ⟨first, apart⟩, rfl⟩
        refine ⟨_, ⟨attributable, agrees, rfl⟩,
          (ih (indexed.merge attributable.reported agrees)).mpr ⟨fun other member => ?_, apart, rfl⟩⟩
        exact ⟨(each other member).1,
          (UsageRegistry.agreesWith_merge agrees).mpr ⟨(each other member).2, first other member⟩⟩

theorem UsageRegistry.agreesWith_foldl {other : String × AttemptUsageGeneration}
    (agrees : ∀ entry ∈ entries, registry.AgreesWith entry) (apart : entries.Pairwise Agrees) :
    (entries.foldl UsageRegistry.merge registry).AgreesWith other ↔
      registry.AgreesWith other ∧ ∀ entry ∈ entries, Agrees entry other := by
  induction entries generalizing registry with
  | nil => simp
  | cons entry entries ih =>
      obtain ⟨first, rest⟩ := List.pairwise_cons.mp apart
      have head := agrees entry (by simp)
      have later : ∀ next ∈ entries, (registry.merge entry).AgreesWith next := fun next member =>
        (UsageRegistry.agreesWith_merge head).mpr ⟨agrees next (by simp [member]), first next member⟩
      rw [List.foldl_cons, ih later rest, UsageRegistry.agreesWith_merge head,
        List.forall_mem_cons, and_assoc]

theorem UsageRegistry.Indexed.foldl (indexed : registry.Indexed)
    (agrees : ∀ entry ∈ entries, Attributable entry ∧ registry.AgreesWith entry)
    (apart : entries.Pairwise Agrees) : (entries.foldl UsageRegistry.merge registry).Indexed := by
  induction entries generalizing registry with
  | nil => exact indexed
  | cons entry entries ih =>
      obtain ⟨first, rest⟩ := List.pairwise_cons.mp apart
      obtain ⟨attributable, head⟩ := agrees entry (by simp)
      refine ih (indexed.merge attributable.reported head) (fun next member => ?_) rest
      obtain ⟨later, known⟩ := agrees next (by simp [member])
      exact ⟨later, (UsageRegistry.agreesWith_merge head).mpr ⟨known, first next member⟩⟩

theorem generations_foldl_merge :
    (entries.foldl UsageRegistry.merge registry).generations =
      entries.foldl mergeEntry registry.generations := by
  induction entries generalizing registry with
  | nil => rfl
  | cons entry entries ih =>
      rw [List.foldl_cons, ih]
      rfl

/-- An accounting whose total is the one derived from its generations, which have the identities
of leases. -/
structure ValidUsageAccounting (accounting : AttemptUsageAccounting) : Prop where
  total : totalAttemptGenerationUsage accounting.generations = .ok accounting.total
  identified : ∀ entry ∈ accounting.generations.entries,
    entry.1 ≠ "" ∧ 1 ≤ entry.2.fencingToken ∧ entry.2.fencingToken ≤ 9007199254740991
  distinct : (generationFences accounting.generations).Nodup

theorem increase_of_addGenerationUsage {generations : List AttemptUsageGeneration}
    {total result : AttemptUsageSnapshot}
    (added : addGenerationUsage total generations = .ok result) :
    ∀ generation ∈ generations,
      ∃ increase, attemptUsageIncrease generation.reported generation.baseline = .ok increase := by
  induction generations generalizing total with
  | nil => simp
  | cons generation generations ih =>
      simp only [addGenerationUsage, bind_eq_ok] at added
      obtain ⟨increase, increased, next, -, rest⟩ := added
      exact List.forall_mem_cons.mpr ⟨⟨increase, increased⟩, ih rest⟩

theorem mem_orderedGenerations {generation : AttemptUsageGeneration} :
    generation ∈ orderedGenerations generations ↔ generation ∈ generations.values :=
  (List.mergeSort_perm _ _).mem_iff

/-- Every generation of a derived total reports no less than its baseline. -/
theorem increase_of_total {total : AttemptUsageSnapshot}
    (derived : totalAttemptGenerationUsage generations = .ok total)
    (member : entry ∈ generations.entries) :
    ∃ increase, attemptUsageIncrease entry.2.reported entry.2.baseline = .ok increase := by
  have ordered : entry.2 ∈ orderedGenerations generations :=
    mem_orderedGenerations.mpr (List.mem_map_of_mem member)
  unfold totalAttemptGenerationUsage at derived
  split at derived
  · cases derived
  next first rest listed =>
    simp only [bind_eq_ok] at derived
    obtain ⟨baseline, -, added⟩ := derived
    exact increase_of_addGenerationUsage added _ (listed ▸ ordered)

variable {accounting : AttemptUsageAccounting}

theorem ValidUsageAccounting.attributable (valid : ValidUsageAccounting accounting)
    (member : entry ∈ accounting.generations.entries) : Attributable entry := by
  obtain ⟨increase, increased⟩ := increase_of_total valid.total member
  obtain ⟨reported, baseline, -, -⟩ := attemptUsageIncrease_iff.mp increased
  obtain ⟨named, positive, safe⟩ := valid.identified entry member
  exact ⟨named, positive, safe, baseline, reported⟩

/-- The generations of a record agree exactly when no two share a fence. -/
theorem pairwise_agrees_iff :
    generations.entries.Pairwise Agrees ↔ (generationFences generations).Nodup := by
  have keys := List.pairwise_map.mp generations.distinct
  rw [generationFences, Record.values, List.map_map, List.Nodup, List.pairwise_map]
  constructor
  · intro agree
    refine (keys.and agree).imp ?_
    rintro first second ⟨differ, agrees⟩ same
    exact differ (agrees.1.mpr same)
  · intro distinct
    refine (keys.and distinct).imp ?_
    rintro first second ⟨differ, fences⟩
    exact ⟨⟨fun same => absurd same differ, fun same => absurd same fences⟩,
      fun same => absurd same differ⟩

theorem mergePublication_eq_ok (indexed : registry.Indexed) :
    mergePublication registry accounting = .ok next ↔
      ValidUsageAccounting accounting ∧
        (∀ entry ∈ accounting.generations.entries, registry.AgreesWith entry) ∧
        next = accounting.generations.entries.foldl UsageRegistry.merge registry := by
  simp only [mergePublication, bind_eq_ok, exists_unit, throwPlainIf_eq_ok,
    validateAttemptUsageSnapshot_eq_ok, foldlM_mergeGeneration_eq_ok indexed, not_not,
    pairwise_agrees_iff]
  constructor
  · rintro ⟨_, ⟨-, rfl⟩, _, derived, rfl, each, distinct, rfl⟩
    refine ⟨⟨derived, fun entry member => ?_, distinct⟩, fun entry member => (each entry member).2,
      rfl⟩
    have attributable := (each entry member).1
    exact ⟨attributable.named, attributable.positive, attributable.safe⟩
  · rintro ⟨valid, agrees, rfl⟩
    exact ⟨_, ⟨totalAttemptGenerationUsage_valid valid.total, rfl⟩, _, valid.total, rfl,
      fun entry member => ⟨valid.attributable member, agrees entry member⟩, valid.distinct, rfl⟩

/-- What two publications must be for their reconciliation to begin. -/
structure Reconcilable (left right : AttemptUsageAccounting) : Prop where
  first : ValidUsageAccounting left
  second : ValidUsageAccounting right
  agree : ∀ entry ∈ left.generations.entries, ∀ other ∈ right.generations.entries,
    Agrees entry other

theorem indexed_empty : UsageRegistry.Indexed { generations := .empty, leasesByFence := .empty } :=
  ⟨by simp, by simp [Record.empty]⟩

theorem agreesWith_empty (entry : String × AttemptUsageGeneration) :
    UsageRegistry.AgreesWith { generations := .empty, leasesByFence := .empty } entry := by
  simp [UsageRegistry.AgreesWith, Record.empty]

/-- The second publication is merged into the first exactly when it is valid and agrees with it. -/
theorem mergePublication_second {left right : AttemptUsageAccounting} {next : UsageRegistry}
    (valid : ValidUsageAccounting left) :
    mergePublication (left.generations.entries.foldl UsageRegistry.merge
        { generations := .empty, leasesByFence := .empty }) right = .ok next ↔
      Reconcilable left right ∧
        next = (left.generations.entries ++ right.generations.entries).foldl UsageRegistry.merge
          { generations := .empty, leasesByFence := .empty } := by
  have apart := pairwise_agrees_iff.mpr valid.distinct
  have indexed := indexed_empty.foldl
    (fun entry member => ⟨valid.attributable member, agreesWith_empty entry⟩) apart
  rw [mergePublication_eq_ok indexed, List.foldl_append, ← and_assoc]
  refine and_congr_left fun _ => ?_
  constructor
  · rintro ⟨validRight, agrees⟩
    refine ⟨valid, validRight, fun entry member other known => ?_⟩
    exact ((UsageRegistry.agreesWith_foldl (fun entry _ => agreesWith_empty entry) apart).mp
      (agrees other known)).2 entry member
  · intro reconcilable
    refine ⟨reconcilable.second, fun other known => ?_⟩
    exact (UsageRegistry.agreesWith_foldl (fun entry _ => agreesWith_empty entry) apart).mpr
      ⟨agreesWith_empty other, fun entry member => reconcilable.agree entry member other known⟩

/-- Two publications are reconciled exactly when they are valid, agree, and their merged
generations have a total. -/
theorem reconcileAttemptUsageAccounting_eq_ok {left right result : AttemptUsageAccounting} :
    reconcileAttemptUsageAccounting (some left) right = .ok result ↔
      Reconcilable left right ∧
        totalAttemptGenerationUsage (mergedGenerations left right) = .ok result.total ∧
        result.generations = mergedGenerations left right := by
  have merged : ((left.generations.entries ++ right.generations.entries).foldl UsageRegistry.merge
      { generations := .empty, leasesByFence := .empty }).generations =
        mergedGenerations left right := generations_foldl_merge
  simp only [reconcileAttemptUsageAccounting, Option.toList_some, List.singleton_append,
    List.foldlM_cons, List.foldlM_nil, bind_eq_ok, pure_eq_ok,
    mergePublication_eq_ok indexed_empty]
  constructor
  · rintro ⟨registry, ⟨_, ⟨valid, -, rfl⟩, _, mergedRight, rfl⟩, total, derived, rfl⟩
    obtain ⟨reconcilable, rfl⟩ := (mergePublication_second valid).mp mergedRight
    rw [merged] at derived ⊢
    exact ⟨reconcilable, derived, rfl⟩
  · rintro ⟨reconcilable, derived, generations⟩
    have valid := reconcilable.first
    refine ⟨_, ⟨_, ⟨valid, fun entry _ => agreesWith_empty entry, rfl⟩, _,
      (mergePublication_second valid).mpr ⟨reconcilable, rfl⟩, rfl⟩, result.total, ?_, ?_⟩
    · rw [merged]
      exact derived
    · rw [merged, ← generations]

end PiAdaptative.TaskRuntime
