import Mathlib.Algebra.Order.Group.MinMax
import Mathlib.Data.List.Pairwise
import PiAdaptative.TaskRuntime.UsageReconciliation

/-!
# Reconciliation is a join

Merged generations are looked up lease by lease, and totals are a function of that lookup, so
reconciliation inherits the laws of component maxima.  A publication extended by registrations and
reports absorbs the one it came from.
-/

namespace PiAdaptative.TaskRuntime

/-- Two accountings with the same total and the same generations. -/
def SameAccounting (left right : AttemptUsageAccounting) : Prop :=
  left.total = right.total ∧
    ∀ leaseId, left.generations.get? leaseId = right.generations.get? leaseId

theorem totalAttemptGenerationUsage_congr {generations others : Record AttemptUsageGeneration}
    (same : ∀ leaseId, generations.get? leaseId = others.get? leaseId)
    (distinct : (generationFences generations).Nodup) :
    totalAttemptGenerationUsage generations = totalAttemptGenerationUsage others := by
  have values : others.values.Perm generations.values :=
    (Record.entries_perm fun leaseId => (same leaseId).symm).map Prod.snd
  have ordered : orderedGenerations generations = orderedGenerations others := by
    refine orderedGenerations_eq ((orderedGenerations_perm others).trans values)
      (orderedGenerations_sorted others) ?_
    rw [((orderedGenerations_perm others).trans values |>.map _).nodup_iff]
    exact distinct
  unfold totalAttemptGenerationUsage
  rw [ordered]

/-- What a generation reports above its baseline. -/
def generationIncrease (generation : AttemptUsageGeneration) : AttemptUsageSnapshot :=
  generation.reported.combine (· - ·) generation.baseline

/-- The first baseline and every increase, added exactly. -/
def exactTotal (generations : Record AttemptUsageGeneration) : AttemptUsageSnapshot :=
  (orderedGenerations generations).foldl
    (fun total generation => total.combine (· + ·) (generationIncrease generation))
    (((orderedGenerations generations).head?.map AttemptUsageGeneration.baseline).getD
      EMPTY_ATTEMPT_USAGE)

/-- A snapshot whose counters are within the range of safe integers. -/
def WithinRange (usage : AttemptUsageSnapshot) : Prop :=
  ∀ counter ∈ usageCounters, counter usage ≤ 9007199254740991

theorem isSafeInteger_iff {quantity : Rat} :
    isSafeInteger quantity = true ↔
      ∃ whole : Int, quantity = whole ∧ whole.natAbs ≤ 9007199254740991 := by
  simp only [isSafeInteger, Bool.and_eq_true, beq_iff_eq, decide_eq_true_eq, Rat.den_eq_one_iff]
  constructor
  · rintro ⟨whole, small⟩
    exact ⟨quantity.num, whole.symm, small⟩
  · rintro ⟨whole, rfl, small⟩
    exact ⟨by simp, by simpa using small⟩

theorem isSafeInteger_add {left right : Rat} (first : isSafeInteger left = true)
    (second : isSafeInteger right = true) (nonneg : 0 ≤ left + right)
    (within : left + right ≤ 9007199254740991) : isSafeInteger (left + right) = true := by
  rw [isSafeInteger_iff] at first second ⊢
  obtain ⟨whole, rfl, -⟩ := first
  obtain ⟨other, rfl, -⟩ := second
  refine ⟨whole + other, by push_cast; rfl, ?_⟩
  have lower : 0 ≤ whole + other := by exact_mod_cast nonneg
  have upper : whole + other ≤ 9007199254740991 := by exact_mod_cast within
  omega

theorem validUsage_add {left right : AttemptUsageSnapshot} (first : ValidUsage left)
    (second : ValidUsage right) (within : WithinRange (left.combine (· + ·) right)) :
    ValidUsage (left.combine (· + ·) right) := by
  rw [validUsage_iff] at first second ⊢
  have nonneg : ∀ component ∈ usageCounters ++ usageMeasures,
      0 ≤ component (left.combine (· + ·) right) := by
    intro component known
    rw [usage_combine known]
    exact add_nonneg (first.2 component known) (second.2 component known)
  refine ⟨fun counter known => ?_, nonneg⟩
  have member := List.mem_append_left usageMeasures known
  have bounded := within counter known
  have positive := nonneg counter member
  rw [usage_combine member] at bounded positive ⊢
  exact isSafeInteger_add (first.1 counter known) (second.1 counter known) positive bounded

variable {generations : List AttemptUsageGeneration}

theorem le_addIncreases
    (grown : ∀ generation ∈ generations, ValidUsage (generationIncrease generation))
    {component : AttemptUsageSnapshot → Rat} (known : component ∈ usageCounters ++ usageMeasures)
    (total : AttemptUsageSnapshot) :
    component total ≤ component (generations.foldl
      (fun total generation => total.combine (· + ·) (generationIncrease generation)) total) := by
  induction generations generalizing total with
  | nil => exact le_refl _
  | cons generation generations ih =>
      have increase := (validUsage_iff.mp (grown generation (by simp))).2 component known
      calc component total
          ≤ component total + component (generationIncrease generation) :=
            le_add_of_nonneg_right increase
        _ = component (total.combine (· + ·) (generationIncrease generation)) :=
            (usage_combine known _ _ _).symm
        _ ≤ _ := ih (fun other member => grown other (by simp [member])) _

variable {total : AttemptUsageSnapshot}

theorem addGenerationUsage_of_within (valid : ValidUsage total)
    (grown : ∀ generation ∈ generations,
      ∃ increase, attemptUsageIncrease generation.reported generation.baseline = .ok increase)
    (within : WithinRange (generations.foldl
      (fun total generation => total.combine (· + ·) (generationIncrease generation)) total)) :
    addGenerationUsage total generations = .ok (generations.foldl
      (fun total generation => total.combine (· + ·) (generationIncrease generation)) total) := by
  have increases : ∀ generation ∈ generations, ValidUsage (generationIncrease generation) := by
    intro generation member
    obtain ⟨_, increased⟩ := grown generation member
    obtain ⟨-, -, increaseValid, rfl⟩ := attemptUsageIncrease_iff.mp increased
    exact increaseValid
  induction generations generalizing total with
  | nil => rfl
  | cons generation generations ih =>
      obtain ⟨increase, increased⟩ := grown generation (by simp)
      obtain ⟨-, -, increaseValid, same⟩ := attemptUsageIncrease_iff.mp increased
      have later : ∀ other ∈ generations, ValidUsage (generationIncrease other) :=
        fun other member => increases other (by simp [member])
      have nextWithin : WithinRange (total.combine (· + ·) (generationIncrease generation)) :=
        fun counter known => le_trans
          (le_addIncreases later (List.mem_append_left _ known) _) (within counter known)
      have nextValid := validUsage_add valid (increases generation (by simp)) nextWithin
      simp only [addGenerationUsage, bind_eq_ok, addAttemptUsage, validateAttemptUsageSnapshot_eq_ok,
        List.foldl_cons]
      refine ⟨increase, increased, _, ⟨_, ⟨valid, rfl⟩, _, ⟨increaseValid, rfl⟩, ?_, rfl⟩, ?_⟩
      · rw [same]
        exact nextValid
      · rw [same]
        exact ih nextValid (fun other member => grown other (by simp [member])) within later

theorem totalAttemptGenerationUsage_of_within {generations : Record AttemptUsageGeneration}
    (registered : generations.entries ≠ [])
    (grown : ∀ entry ∈ generations.entries,
      ∃ increase, attemptUsageIncrease entry.2.reported entry.2.baseline = .ok increase)
    (within : WithinRange (exactTotal generations)) :
    totalAttemptGenerationUsage generations = .ok (exactTotal generations) := by
  have each : ∀ generation ∈ orderedGenerations generations,
      ∃ increase, attemptUsageIncrease generation.reported generation.baseline = .ok increase := by
    intro generation member
    obtain ⟨entry, known, rfl⟩ := List.mem_map.mp (mem_orderedGenerations.mp member)
    exact grown entry known
  unfold totalAttemptGenerationUsage
  cases listed : orderedGenerations generations with
  | nil =>
      have same := (orderedGenerations_perm generations).length_eq
      rw [listed, Record.values, List.length_map] at same
      exact absurd (List.length_eq_zero_iff.mp same.symm) registered
  | cons first rest =>
      rw [listed] at each
      obtain ⟨_, increased⟩ := each first (by simp)
      have baseline := (attemptUsageIncrease_iff.mp increased).2.1
      have total : exactTotal generations = (first :: rest).foldl
          (fun total generation => total.combine (· + ·) (generationIncrease generation))
          first.baseline := by
        rw [exactTotal, listed]
        rfl
      rw [total] at within ⊢
      simp only [bind_eq_ok, validateAttemptUsageSnapshot_eq_ok]
      exact ⟨_, ⟨baseline, rfl⟩, addGenerationUsage_of_within baseline each within⟩

variable {left right : AttemptUsageAccounting}

theorem Reconcilable.symm (reconcilable : Reconcilable left right) : Reconcilable right left :=
  ⟨reconcilable.second, reconcilable.first, fun entry member other known =>
    (reconcilable.agree other known entry member).symm⟩

variable {accounting : AttemptUsageAccounting}

theorem ValidUsageAccounting.agrees (valid : ValidUsageAccounting accounting) :
    ∀ entry ∈ accounting.generations.entries, ∀ other ∈ accounting.generations.entries,
      Agrees entry other :=
  have : Std.Symm Agrees := ⟨fun _ _ => Agrees.symm⟩
  fun _ member _ known => List.Pairwise.forall_of_forall (fun entry _ => Agrees.refl entry)
    (pairwise_agrees_iff.mpr valid.distinct) member known

/-- Where two reconcilable publications know a lease, they know it alike. -/
theorem Reconcilable.alike (reconcilable : Reconcilable left right) {leaseId : String}
    {generation other : AttemptUsageGeneration}
    (first : left.generations.get? leaseId = some generation)
    (second : right.generations.get? leaseId = some other) :
    generation.fencingToken = other.fencingToken ∧ generation.baseline = other.baseline := by
  have agrees := reconcilable.agree _ (Record.get?_eq_some.mp first) _
    (Record.get?_eq_some.mp second)
  exact ⟨agrees.1.mp rfl, agrees.2 rfl⟩

theorem mergedGenerations_cases {leaseId : String} {generation : AttemptUsageGeneration}
    (found : (mergedGenerations left right).get? leaseId = some generation) :
    left.generations.get? leaseId = some generation ∨
      right.generations.get? leaseId = some generation ∨
      ∃ first second, left.generations.get? leaseId = some first ∧
        right.generations.get? leaseId = some second ∧ generation = joinReports first second := by
  rw [get?_mergedGenerations, Option.merge_eq_some_iff] at found
  rcases found with ⟨first, -⟩ | ⟨-, second⟩ | ⟨first, second, held, known, joined⟩
  · exact .inl first
  · exact .inr (.inl second)
  · exact .inr (.inr ⟨first, second, held, known, joined.symm⟩)

section

variable (reconcilable : Reconcilable left right)
include reconcilable

/-- The merged entries agree with an entry exactly when both publications do. -/
theorem mergedGenerations_agree {other : String × AttemptUsageGeneration} :
    (∀ entry ∈ (mergedGenerations left right).entries, Agrees entry other) ↔
      (∀ entry ∈ left.generations.entries, Agrees entry other) ∧
        ∀ entry ∈ right.generations.entries, Agrees entry other := by
  constructor
  · intro merged
    constructor
    · rintro ⟨leaseId, generation⟩ member
      have held := Record.get?_eq_some.mpr member
      have found := get?_mergedGenerations left right leaseId
      rw [held] at found
      cases known : right.generations.get? leaseId with
      | none =>
          rw [known, Option.merge_none_right] at found
          exact merged _ (Record.get?_eq_some.mp found)
      | some second =>
          rw [known, Option.merge_some_some] at found
          have same : SameProvenance (leaseId, generation)
              (leaseId, joinReports generation second) := ⟨rfl, rfl, rfl⟩
          exact same.agrees_iff.mpr (merged _ (Record.get?_eq_some.mp found))
    · rintro ⟨leaseId, generation⟩ member
      have held := Record.get?_eq_some.mpr member
      have found := get?_mergedGenerations left right leaseId
      rw [held] at found
      cases known : left.generations.get? leaseId with
      | none =>
          rw [known, Option.merge_none_left] at found
          exact merged _ (Record.get?_eq_some.mp found)
      | some first =>
          rw [known, Option.merge_some_some] at found
          obtain ⟨fence, baseline⟩ := reconcilable.alike known held
          have same : SameProvenance (leaseId, generation)
              (leaseId, joinReports first generation) := ⟨rfl, fence.symm, baseline.symm⟩
          exact same.agrees_iff.mpr (merged _ (Record.get?_eq_some.mp found))
  · rintro ⟨inLeft, inRight⟩ ⟨leaseId, generation⟩ member
    rcases mergedGenerations_cases (Record.get?_eq_some.mpr member) with
      held | known | ⟨first, second, held, -, rfl⟩
    · exact inLeft _ (Record.get?_eq_some.mp held)
    · exact inRight _ (Record.get?_eq_some.mp known)
    · have same : SameProvenance (leaseId, first) (leaseId, joinReports first second) :=
        ⟨rfl, rfl, rfl⟩
      exact same.agrees_iff.mp (inLeft _ (Record.get?_eq_some.mp held))

theorem mergedGenerations_distinct : (generationFences (mergedGenerations left right)).Nodup := by
  refine pairwise_agrees_iff.mp (List.pairwise_of_forall_mem_list ?_)
  have toLeft := fun other member => (mergedGenerations_agree reconcilable).mpr
    ⟨fun entry known => reconcilable.first.agrees entry known other member,
      fun entry known => (reconcilable.agree other member entry known).symm⟩
  have toRight := fun other member => (mergedGenerations_agree reconcilable).mpr
    ⟨fun entry known => reconcilable.agree entry known other member,
      fun entry known => reconcilable.second.agrees entry known other member⟩
  intro entry member other known
  have each : ∀ merged ∈ (mergedGenerations left right).entries, Agrees merged entry :=
    (mergedGenerations_agree reconcilable).mpr
      ⟨fun first held => (toLeft first held entry member).symm,
        fun second held => (toRight second held entry member).symm⟩
  exact (each other known).symm

theorem mergedGenerations_identified :
    ∀ entry ∈ (mergedGenerations left right).entries,
      entry.1 ≠ "" ∧ 1 ≤ entry.2.fencingToken ∧ entry.2.fencingToken ≤ 9007199254740991 := by
  rintro ⟨leaseId, generation⟩ member
  rcases mergedGenerations_cases (Record.get?_eq_some.mpr member) with
    held | known | ⟨first, second, held, -, rfl⟩
  · exact reconcilable.first.identified _ (Record.get?_eq_some.mp held)
  · exact reconcilable.second.identified _ (Record.get?_eq_some.mp known)
  · exact reconcilable.first.identified (leaseId, first) (Record.get?_eq_some.mp held)

theorem mergedGenerations_increase :
    ∀ entry ∈ (mergedGenerations left right).entries,
      ∃ increase, attemptUsageIncrease entry.2.reported entry.2.baseline = .ok increase := by
  rintro ⟨leaseId, generation⟩ member
  rcases mergedGenerations_cases (Record.get?_eq_some.mpr member) with
    held | known | ⟨first, second, held, known, rfl⟩
  · exact increase_of_total reconcilable.first.total (Record.get?_eq_some.mp held)
  · exact increase_of_total reconcilable.second.total (Record.get?_eq_some.mp known)
  · obtain ⟨-, baseline⟩ := reconcilable.alike held known
    obtain ⟨_, increased⟩ :=
      increase_of_total reconcilable.first.total (Record.get?_eq_some.mp held)
    obtain ⟨_, grown⟩ :=
      increase_of_total reconcilable.second.total (Record.get?_eq_some.mp known)
    obtain ⟨reported, valid, above, rfl⟩ := attemptUsageIncrease_iff.mp increased
    obtain ⟨otherReported, -, otherAbove, rfl⟩ := attemptUsageIncrease_iff.mp grown
    refine ⟨_, attemptUsageIncrease_iff.mpr
      ⟨validUsage_max reported otherReported, valid, ?_, rfl⟩⟩
    have difference : (first.reported.combine max second.reported).combine (· - ·)
        first.baseline = (first.reported.combine (· - ·) first.baseline).combine max
          (second.reported.combine (· - ·) second.baseline) := by
      refine usage_ext fun component counted => ?_
      simp only [usage_combine counted, ← baseline]
      exact (max_sub_sub_right _ _ _).symm
    change ValidUsage ((first.reported.combine max second.reported).combine (· - ·)
      first.baseline)
    rw [difference]
    exact validUsage_max above otherAbove

end

/-- Two reconciliations that are both refused, or give the same accounting. -/
def SameReconciliation (left right : Outcome AttemptUsageAccounting) : Prop :=
  (∀ result, left = .ok result → ∃ other, right = .ok other ∧ SameAccounting result other) ∧
    ∀ result, right = .ok result → ∃ other, left = .ok other ∧ SameAccounting other result

theorem reconcile_of_total (reconcilable : Reconcilable left right)
    (derived : totalAttemptGenerationUsage (mergedGenerations left right) = .ok total) :
    reconcileAttemptUsageAccounting (some left) right =
      .ok { total, generations := mergedGenerations left right } :=
  reconcileAttemptUsageAccounting_eq_ok.mpr ⟨reconcilable, derived, rfl⟩

theorem reconcile_valid {left right result : AttemptUsageAccounting}
    (reconciled : reconcileAttemptUsageAccounting (some left) right = .ok result) :
    ValidUsageAccounting result := by
  obtain ⟨reconcilable, derived, generations⟩ :=
    reconcileAttemptUsageAccounting_eq_ok.mp reconciled
  refine ⟨generations ▸ derived, ?_, ?_⟩ <;> rw [generations]
  · exact mergedGenerations_identified reconcilable
  · exact mergedGenerations_distinct reconcilable

theorem reconcile_same {left right result other next : AttemptUsageAccounting}
    (reconciled : reconcileAttemptUsageAccounting (some left) right = .ok result)
    (reconcilable : Reconcilable other next)
    (same : ∀ leaseId, (mergedGenerations left right).get? leaseId =
      (mergedGenerations other next).get? leaseId) :
    ∃ found, reconcileAttemptUsageAccounting (some other) next = .ok found ∧
      SameAccounting result found := by
  obtain ⟨earlier, derived, generations⟩ := reconcileAttemptUsageAccounting_eq_ok.mp reconciled
  rw [totalAttemptGenerationUsage_congr same (mergedGenerations_distinct earlier)] at derived
  refine ⟨_, reconcile_of_total reconcilable derived, rfl, fun leaseId => ?_⟩
  rw [generations, same]

theorem mergedGenerations_comm (reconcilable : Reconcilable left right) (leaseId : String) :
    (mergedGenerations left right).get? leaseId = (mergedGenerations right left).get? leaseId := by
  rw [get?_mergedGenerations, get?_mergedGenerations]
  cases first : left.generations.get? leaseId with
  | none => rw [Option.merge_none_left, Option.merge_none_right]
  | some generation =>
      cases second : right.generations.get? leaseId with
      | none => rw [Option.merge_none_left, Option.merge_none_right]
      | some other =>
          obtain ⟨fence, baseline⟩ := reconcilable.alike first second
          have reports : generation.reported.combine max other.reported =
              other.reported.combine max generation.reported :=
            usage_ext fun component counted => by
              rw [usage_combine counted, usage_combine counted, max_comm]
          rw [Option.merge_some_some, Option.merge_some_some, joinReports, joinReports, reports,
            fence, baseline]

theorem joinReports_assoc (first second third : AttemptUsageGeneration) :
    joinReports (joinReports first second) third = joinReports first (joinReports second third) := by
  have reports : (first.reported.combine max second.reported).combine max third.reported =
      first.reported.combine max (second.reported.combine max third.reported) :=
    usage_ext fun component counted => by
      rw [usage_combine counted, usage_combine counted, usage_combine counted,
        usage_combine counted, max_assoc]
  simp only [joinReports, reports]

theorem mergedGenerations_assoc {left middle right joined grouped : AttemptUsageAccounting}
    (first : joined.generations = mergedGenerations left middle)
    (second : grouped.generations = mergedGenerations middle right) (leaseId : String) :
    (mergedGenerations joined right).get? leaseId =
      (mergedGenerations left grouped).get? leaseId := by
  have : Std.Associative joinReports := ⟨joinReports_assoc⟩
  rw [get?_mergedGenerations, get?_mergedGenerations, first, second, get?_mergedGenerations,
    get?_mergedGenerations]
  exact (Option.associative_merge joinReports).assoc _ _ _

theorem reconcile_comm {left right result : AttemptUsageAccounting}
    (reconciled : reconcileAttemptUsageAccounting (some left) right = .ok result) :
    ∃ other, reconcileAttemptUsageAccounting (some right) left = .ok other ∧
      SameAccounting result other := by
  have reconcilable := (reconcileAttemptUsageAccounting_eq_ok.mp reconciled).1
  exact reconcile_same reconciled reconcilable.symm (mergedGenerations_comm reconcilable)

/-- Reconcilable publications whose merged total is within range are reconciled. -/
theorem reconcile_of_within (reconcilable : Reconcilable left right)
    (within : WithinRange (exactTotal (mergedGenerations left right))) :
    ∃ result, reconcileAttemptUsageAccounting (some left) right = .ok result ∧
      result.generations = mergedGenerations left right := by
  have registered : (mergedGenerations left right).entries ≠ [] := by
    intro none
    have valid := reconcilable.first.total
    cases listed : orderedGenerations left.generations with
    | nil =>
        rw [totalAttemptGenerationUsage, listed] at valid
        cases valid
    | cons first rest =>
        have member : first ∈ left.generations.values :=
          mem_orderedGenerations.mp (by simp [listed])
        obtain ⟨leaseId, found⟩ := Record.mem_values.mp member
        have merged := get?_mergedGenerations left right leaseId
        rw [found, Record.get?, none] at merged
        cases known : right.generations.get? leaseId <;> rw [known] at merged <;> cases merged
  exact ⟨_, reconcile_of_total reconcilable (totalAttemptGenerationUsage_of_within registered
    (mergedGenerations_increase reconcilable) within), rfl⟩

theorem reconcile_assoc_left {left middle right joined result : AttemptUsageAccounting}
    (first : reconcileAttemptUsageAccounting (some left) middle = .ok joined)
    (second : reconcileAttemptUsageAccounting (some joined) right = .ok result)
    (within : WithinRange (exactTotal (mergedGenerations middle right))) :
    ∃ grouped other, reconcileAttemptUsageAccounting (some middle) right = .ok grouped ∧
      reconcileAttemptUsageAccounting (some left) grouped = .ok other ∧
      SameAccounting result other := by
  obtain ⟨inner, -, joinedGenerations⟩ := reconcileAttemptUsageAccounting_eq_ok.mp first
  obtain ⟨outer, -, -⟩ := reconcileAttemptUsageAccounting_eq_ok.mp second
  have agrees : ∀ entry ∈ right.generations.entries,
      (∀ known ∈ left.generations.entries, Agrees known entry) ∧
        ∀ known ∈ middle.generations.entries, Agrees known entry := by
    intro entry member
    refine (mergedGenerations_agree inner).mp fun known held => ?_
    exact outer.agree known (joinedGenerations ▸ held) entry member
  have later : Reconcilable middle right :=
    ⟨inner.second, outer.second, fun known held entry member => (agrees entry member).2 known held⟩
  obtain ⟨grouped, reconciled, groupedGenerations⟩ := reconcile_of_within later within
  have whole : Reconcilable left grouped := by
    refine ⟨inner.first, reconcile_valid reconciled, fun known held entry member => ?_⟩
    rw [groupedGenerations] at member
    refine Agrees.symm ((mergedGenerations_agree later).mpr ⟨?_, ?_⟩ entry member)
    · exact fun other among => (inner.agree known held other among).symm
    · exact fun other among => ((agrees other among).1 known held).symm
  obtain ⟨other, found, same⟩ := reconcile_same second whole
    (mergedGenerations_assoc joinedGenerations groupedGenerations)
  exact ⟨grouped, other, reconciled, found, same⟩

theorem reconcile_assoc_right {left middle right grouped result : AttemptUsageAccounting}
    (first : reconcileAttemptUsageAccounting (some middle) right = .ok grouped)
    (second : reconcileAttemptUsageAccounting (some left) grouped = .ok result)
    (within : WithinRange (exactTotal (mergedGenerations left middle))) :
    ∃ joined other, reconcileAttemptUsageAccounting (some left) middle = .ok joined ∧
      reconcileAttemptUsageAccounting (some joined) right = .ok other ∧
      SameAccounting other result := by
  obtain ⟨inner, -, groupedGenerations⟩ := reconcileAttemptUsageAccounting_eq_ok.mp first
  obtain ⟨outer, -, -⟩ := reconcileAttemptUsageAccounting_eq_ok.mp second
  have agrees : ∀ entry ∈ left.generations.entries,
      (∀ known ∈ middle.generations.entries, Agrees known entry) ∧
        ∀ known ∈ right.generations.entries, Agrees known entry := by
    intro entry member
    refine (mergedGenerations_agree inner).mp fun known held => ?_
    exact (outer.agree entry member known (groupedGenerations ▸ held)).symm
  have earlier : Reconcilable left middle :=
    ⟨outer.first, inner.first, fun entry member known held =>
      ((agrees entry member).1 known held).symm⟩
  obtain ⟨joined, reconciled, joinedGenerations⟩ := reconcile_of_within earlier within
  have whole : Reconcilable joined right := by
    refine ⟨reconcile_valid reconciled, inner.second, fun entry member known held => ?_⟩
    rw [joinedGenerations] at member
    refine (mergedGenerations_agree earlier).mpr ⟨?_, ?_⟩ entry member
    · exact fun other among => ((agrees other among).2 known held).symm
    · exact fun other among => inner.agree other among known held
  obtain ⟨other, found, total, generations⟩ := reconcile_same second whole fun leaseId =>
    (mergedGenerations_assoc joinedGenerations groupedGenerations leaseId).symm
  exact ⟨joined, other, reconciled, found, total.symm, fun leaseId => (generations leaseId).symm⟩

/-- A publication whose generations are all known to another one, with reports that only grew. -/
def Extends (earlier later : AttemptUsageAccounting) : Prop :=
  ∀ leaseId generation, earlier.generations.get? leaseId = some generation →
    ∃ grown, later.generations.get? leaseId = some grown ∧
      generation.fencingToken = grown.fencingToken ∧ generation.baseline = grown.baseline ∧
      ∀ component ∈ usageCounters ++ usageMeasures,
        component generation.reported ≤ component grown.reported

theorem Extends.refl (accounting : AttemptUsageAccounting) : Extends accounting accounting :=
  fun _ generation found => ⟨generation, found, rfl, rfl, fun _ _ => le_refl _⟩

theorem Extends.trans {first second third : AttemptUsageAccounting} (earlier : Extends first second)
    (later : Extends second third) : Extends first third := by
  intro leaseId generation found
  obtain ⟨middle, known, fence, baseline, grown⟩ := earlier leaseId generation found
  obtain ⟨last, held, sameFence, sameBaseline, further⟩ := later leaseId middle known
  exact ⟨last, held, fence.trans sameFence, baseline.trans sameBaseline, fun component counted =>
    le_trans (grown component counted) (further component counted)⟩

theorem joinReports_of_le {generation grown : AttemptUsageGeneration}
    (fence : generation.fencingToken = grown.fencingToken)
    (baseline : generation.baseline = grown.baseline)
    (reported : ∀ component ∈ usageCounters ++ usageMeasures,
      component generation.reported ≤ component grown.reported) :
    joinReports generation grown = grown := by
  have reports : generation.reported.combine max grown.reported = grown.reported :=
    usage_ext fun component counted => by
      rw [usage_combine counted, max_eq_right (reported component counted)]
  simp_all [joinReports]

variable {earlier later : AttemptUsageAccounting}

/-- A valid publication absorbs a valid one that it extends. -/
theorem Extends.absorbed (extension : Extends earlier later)
    (valid : ValidUsageAccounting earlier) (grown : ValidUsageAccounting later) :
    ∃ result, reconcileAttemptUsageAccounting (some earlier) later = .ok result ∧
      SameAccounting result later := by
  have reconcilable : Reconcilable earlier later := by
    refine ⟨valid, grown, ?_⟩
    rintro ⟨leaseId, generation⟩ member other known
    obtain ⟨found, held, fence, baseline, -⟩ :=
      extension leaseId generation (Record.get?_eq_some.mpr member)
    have same : SameProvenance (leaseId, generation) (leaseId, found) := ⟨rfl, fence, baseline⟩
    exact same.agrees_iff.mpr (grown.agrees _ (Record.get?_eq_some.mp held) other known)
  have merged : ∀ leaseId, (mergedGenerations earlier later).get? leaseId =
      later.generations.get? leaseId := by
    intro leaseId
    rw [get?_mergedGenerations]
    cases found : earlier.generations.get? leaseId with
    | none => rw [Option.merge_none_left]
    | some generation =>
        obtain ⟨last, held, fence, baseline, reported⟩ := extension leaseId generation found
        rw [held, Option.merge_some_some, joinReports_of_le fence baseline reported]
  have derived := grown.total
  rw [← totalAttemptGenerationUsage_congr merged (mergedGenerations_distinct reconcilable)]
    at derived
  exact ⟨_, reconcile_of_total reconcilable derived, rfl, merged⟩

/-- A registration or a report that extends an accounting. -/
inductive UsageStep : AttemptUsageAccounting → AttemptUsageAccounting → Prop
  | begun {before after : AttemptUsageAccounting} {identity : AttemptUsageGenerationIdentity}
      {recoveryBaseline : Option AttemptUsageSnapshot}
      (step : beginAttemptUsageGeneration (some before) identity recoveryBaseline = .ok after) :
      UsageStep before after
  | recorded {before after : AttemptUsageAccounting} {identity : AttemptUsageGenerationIdentity}
      {usage : AttemptUsageSnapshot}
      (step : recordAttemptGenerationUsage before identity usage = .ok after) :
      UsageStep before after

variable {before after : AttemptUsageAccounting} {identity : AttemptUsageGenerationIdentity}

/-- A registration leaves the accounting, or adds a generation of a new lease and fence that starts
from the total. -/
theorem beginAttemptUsageGeneration_cases {recoveryBaseline : Option AttemptUsageSnapshot}
    (begun : beginAttemptUsageGeneration (some before) identity recoveryBaseline = .ok after) :
    after = before ∨ before.generations.get? identity.leaseId = none ∧
      (∀ generation ∈ before.generations.values,
        generation.fencingToken ≠ identity.fencingToken) ∧
      after = {
        total := before.total
        generations := before.generations.set identity.leaseId {
          fencingToken := identity.fencingToken
          baseline := before.total
          reported := before.total } } := by
  simp only [beginAttemptUsageGeneration, bind_eq_ok] at begun
  obtain ⟨found, searched, begun⟩ := begun
  split at begun
  next generation =>
    left
    split at begun
    · exact (pure_eq_ok.mp begun).symm
    · simp only [bind_eq_ok, exists_unit, pure_eq_ok] at begun
      obtain ⟨-, -, -, same⟩ := begun
      exact same.symm
  next =>
    simp only [registerGeneration, bind_eq_ok, exists_unit, pure_eq_ok, throwPlainIf_eq_ok,
      validateAttemptUsageSnapshot_eq_ok, Option.map_some, Option.getD_some] at begun
    obtain ⟨-, unregistered, _, ⟨-, rfl⟩, rfl⟩ := begun
    refine .inr ⟨findUsageGeneration_eq_ok searched, fun generation member same => ?_, rfl⟩
    exact unregistered (List.any_eq_true.mpr ⟨generation, member, by simpa using same⟩)

/-- A report leaves the accounting, or raises one generation and derives the total again. -/
theorem recordAttemptGenerationUsage_cases {usage : AttemptUsageSnapshot}
    (recorded : recordAttemptGenerationUsage before identity usage = .ok after) :
    after = before ∨ ∃ generation increase,
      before.generations.get? identity.leaseId = some generation ∧
      attemptUsageIncrease usage generation.reported = .ok increase ∧
      after.generations = before.generations.set identity.leaseId
        { generation with reported := usage } ∧
      totalAttemptGenerationUsage after.generations = .ok after.total := by
  simp only [recordAttemptGenerationUsage, bind_eq_ok] at recorded
  obtain ⟨found, searched, recorded⟩ := recorded
  split at recorded
  · cases recorded
  next generation =>
    simp only [bind_eq_ok, validateAttemptUsageSnapshot_eq_ok] at recorded
    obtain ⟨_, ⟨-, rfl⟩, increase, increased, recorded⟩ := recorded
    split at recorded
    · exact .inl (pure_eq_ok.mp recorded).symm
    · simp only [bind_eq_ok, pure_eq_ok] at recorded
      obtain ⟨total, derived, rfl⟩ := recorded
      exact .inr ⟨generation, increase, findUsageGeneration_eq_ok searched, increased, rfl,
        derived⟩

/-- Every step extends the accounting it starts from. -/
theorem UsageStep.extends (step : UsageStep before after) : Extends before after := by
  cases step with
  | begun step =>
      rcases beginAttemptUsageGeneration_cases step with rfl | ⟨absent, -, rfl⟩
      · exact Extends.refl _
      · intro leaseId generation found
        refine ⟨generation, ?_, rfl, rfl, fun _ _ => le_refl _⟩
        rw [Record.get?_set_of_ne, found]
        rintro rfl
        rw [absent] at found
        cases found
  | recorded step =>
      rename_i identity usage
      rcases recordAttemptGenerationUsage_cases step with
        rfl | ⟨registered, increase, known, increased, generations, -⟩
      · exact Extends.refl _
      · intro leaseId generation found
        rw [generations]
        by_cases same : leaseId = identity.leaseId
        · subst same
          obtain rfl := Option.some.inj (known.symm.trans found)
          refine ⟨_, Record.get?_set_self _ _ _, rfl, rfl, fun component counted => ?_⟩
          obtain ⟨-, -, valid, rfl⟩ := attemptUsageIncrease_iff.mp increased
          have nonneg := (validUsage_iff.mp valid).2 component counted
          rw [usage_combine counted] at nonneg
          exact sub_nonneg.mp nonneg
        · exact ⟨generation, by rw [Record.get?_set_of_ne same, found], rfl, rfl,
            fun _ _ => le_refl _⟩

theorem extends_of_steps (steps : Relation.ReflTransGen UsageStep earlier later) :
    Extends earlier later := by
  induction steps with
  | refl => exact Extends.refl _
  | tail _ step ih => exact ih.trans step.extends

/-- A step whose registrations name a lease with a later fence than all before. -/
inductive OrderedUsageStep : AttemptUsageAccounting → AttemptUsageAccounting → Prop
  | begun {before after : AttemptUsageAccounting} {identity : AttemptUsageGenerationIdentity}
      {recoveryBaseline : Option AttemptUsageSnapshot}
      (step : beginAttemptUsageGeneration (some before) identity recoveryBaseline = .ok after)
      (ordered : before.generations.get? identity.leaseId = none → identity.leaseId ≠ "" ∧
        identity.fencingToken ≤ 9007199254740991 ∧
        ∀ generation ∈ before.generations.values,
          generation.fencingToken < identity.fencingToken) :
      OrderedUsageStep before after
  | recorded {before after : AttemptUsageAccounting} {identity : AttemptUsageGenerationIdentity}
      {usage : AttemptUsageSnapshot}
      (step : recordAttemptGenerationUsage before identity usage = .ok after) :
      OrderedUsageStep before after

theorem ValidUsageAccounting.registered (valid : ValidUsageAccounting accounting) :
    ∃ entry, entry ∈ accounting.generations.entries := by
  have derived := valid.total
  cases listed : orderedGenerations accounting.generations with
  | nil =>
      rw [totalAttemptGenerationUsage, listed] at derived
      cases derived
  | cons first rest =>
      obtain ⟨entry, member, -⟩ := List.mem_map.mp
        (mem_orderedGenerations.mp (listed ▸ List.mem_cons_self))
      exact ⟨entry, member⟩

/-- A step that registers leases in fence order keeps an accounting valid. -/
theorem OrderedUsageStep.valid (step : OrderedUsageStep before after)
    (valid : ValidUsageAccounting before) : ValidUsageAccounting after := by
  cases step with
  | begun step ordered =>
      rcases beginAttemptUsageGeneration_cases step with rfl | ⟨absent, -, rfl⟩
      · exact valid
      obtain ⟨named, safe, later⟩ := ordered absent
      refine ⟨totalAttemptGenerationUsage_set_last valid.total valid.distinct absent later, ?_, ?_⟩
      · rintro entry member
        rcases Record.mem_entries_set.mp member with rfl | ⟨known, -⟩
        · obtain ⟨earlier, held⟩ := valid.registered
          have after := later earlier.2 (List.mem_map_of_mem held)
          exact ⟨named, by dsimp only; omega, safe⟩
        · exact valid.identified entry known
      · rw [generationFences, ((Record.values_set_perm _ _ _).map _).nodup_iff, List.map_cons,
          List.nodup_cons, Record.values, Record.erase_of_absent absent]
        refine ⟨fun member => ?_, valid.distinct⟩
        obtain ⟨other, present, same⟩ := List.mem_map.mp member
        exact absurd same (Nat.ne_of_lt (later other present))
  | recorded step =>
      rename_i identity usage
      rcases recordAttemptGenerationUsage_cases step with
        rfl | ⟨registered, increase, known, -, generations, derived⟩
      · exact valid
      refine ⟨derived, ?_, ?_⟩ <;> rw [generations]
      · rintro entry member
        rcases Record.mem_entries_set.mp member with rfl | ⟨earlier, -⟩
        · exact valid.identified (identity.leaseId, registered) (Record.get?_eq_some.mp known)
        · exact valid.identified entry earlier
      · have distinct := valid.distinct
        rw [generationFences, ((Record.values_perm_of_get? known).map _).nodup_iff] at distinct
        rw [generationFences, ((Record.values_set_perm _ _ _).map _).nodup_iff]
        exact distinct

/-- Reconciliation is a join: it does not depend on the order or the grouping of publications,
joins a valid one to itself without a change, and absorbs every publication an accounting was
obtained from; registrations in fence order keep an accounting valid. -/
theorem usage_reconciliation_is_a_join :
    (∀ left right, SameReconciliation (reconcileAttemptUsageAccounting (some left) right)
      (reconcileAttemptUsageAccounting (some right) left)) ∧
    (∀ left middle right, WithinRange (exactTotal (mergedGenerations left middle)) →
      WithinRange (exactTotal (mergedGenerations middle right)) →
      SameReconciliation
        (do
          let joined ← reconcileAttemptUsageAccounting (some left) middle
          reconcileAttemptUsageAccounting (some joined) right)
        (do
          let grouped ← reconcileAttemptUsageAccounting (some middle) right
          reconcileAttemptUsageAccounting (some left) grouped)) ∧
    (∀ accounting, ValidUsageAccounting accounting →
      ∃ result, reconcileAttemptUsageAccounting (some accounting) accounting = .ok result ∧
        SameAccounting result accounting) ∧
    (∀ earlier later, ValidUsageAccounting earlier → ValidUsageAccounting later →
      Relation.ReflTransGen UsageStep earlier later →
      (∃ result, reconcileAttemptUsageAccounting (some earlier) later = .ok result ∧
        SameAccounting result later) ∧
      ∃ result, reconcileAttemptUsageAccounting (some later) earlier = .ok result ∧
        SameAccounting result later) ∧
    ∀ earlier later, ValidUsageAccounting earlier →
      Relation.ReflTransGen OrderedUsageStep earlier later → ValidUsageAccounting later := by
  refine ⟨fun left right => ⟨fun result => reconcile_comm, fun result reconciled => ?_⟩,
    fun left middle right first second => ⟨fun result folded => ?_, fun result folded => ?_⟩,
    fun accounting valid => (Extends.refl accounting).absorbed valid valid,
    fun earlier later valid grown steps => ?_, fun earlier later valid steps => ?_⟩
  · obtain ⟨other, found, total, generations⟩ := reconcile_comm reconciled
    exact ⟨other, found, total.symm, fun leaseId => (generations leaseId).symm⟩
  · obtain ⟨joined, reconciled, last⟩ := bind_eq_ok.mp folded
    obtain ⟨grouped, other, between, found, same⟩ := reconcile_assoc_left reconciled last second
    exact ⟨other, bind_eq_ok.mpr ⟨grouped, between, found⟩, same⟩
  · obtain ⟨grouped, reconciled, last⟩ := bind_eq_ok.mp folded
    obtain ⟨joined, other, between, found, same⟩ := reconcile_assoc_right reconciled last first
    exact ⟨other, bind_eq_ok.mpr ⟨joined, between, found⟩, same⟩
  · obtain ⟨result, reconciled, total, generations⟩ :=
      (extends_of_steps steps).absorbed valid grown
    obtain ⟨other, swapped, sameTotal, sameGenerations⟩ := reconcile_comm reconciled
    exact ⟨⟨result, reconciled, total, generations⟩, other, swapped, sameTotal.symm.trans total,
      fun leaseId => (sameGenerations leaseId).symm.trans (generations leaseId)⟩
  · induction steps with
    | refl => exact valid
    | tail _ step ih => exact step.valid ih

def callsUsage (calls : Nat) : AttemptUsageSnapshot :=
  { EMPTY_ATTEMPT_USAGE with toolCalls := calls }

def firstPublication : AttemptUsageAccounting where
  total := callsUsage 0
  generations := Record.set .empty "lease-1"
    { fencingToken := 1, baseline := callsUsage 0, reported := callsUsage 0 }

/-- The publication after that lease reported three calls. -/
def laterPublication : AttemptUsageAccounting where
  total := callsUsage 3
  generations := Record.set .empty "lease-1"
    { fencingToken := 1, baseline := callsUsage 0, reported := callsUsage 3 }

theorem firstPublication_valid : ValidUsageAccounting firstPublication where
  total := totalAttemptGenerationUsage_first validUsage_empty
  identified := by simp [firstPublication, Record.set, Record.empty, insertEntry]
  distinct := List.nodup_singleton _

theorem callsUsage_valid {calls : Nat} (small : calls ≤ 9007199254740991) :
    ValidUsage (callsUsage calls) := by
  rw [validUsage_iff]
  simp only [usageCounters, usageMeasures, List.cons_append, List.nil_append,
    List.forall_mem_cons, callsUsage, EMPTY_ATTEMPT_USAGE]
  simp [isSafeInteger]
  exact decide_eq_true small

theorem callsUsage_sub_zero (calls : Nat) :
    (callsUsage calls).combine (· - ·) (callsUsage 0) = callsUsage calls := by
  simp [callsUsage, AttemptUsageSnapshot.combine, EMPTY_ATTEMPT_USAGE]

theorem laterPublication_derived :
    totalAttemptGenerationUsage laterPublication.generations = .ok (callsUsage 3) := by
  have none := callsUsage_valid (Nat.zero_le 9007199254740991)
  have three : ValidUsage (callsUsage 3) := callsUsage_valid (by decide)
  have values : laterPublication.generations.values =
      [{ fencingToken := 1, baseline := callsUsage 0, reported := callsUsage 3 }] := rfl
  have increase : attemptUsageIncrease (callsUsage 3) (callsUsage 0) = .ok (callsUsage 3) :=
    attemptUsageIncrease_iff.mpr ⟨three, none, three, (callsUsage_sub_zero 3).symm⟩
  have sum : (callsUsage 0).combine (· + ·) (callsUsage 3) = callsUsage 3 := by
    simp [callsUsage, AttemptUsageSnapshot.combine, EMPTY_ATTEMPT_USAGE]
  rw [totalAttemptGenerationUsage, orderedGenerations, values, List.mergeSort_singleton]
  simp only [addGenerationUsage, addAttemptUsage, bind_eq_ok, validateAttemptUsageSnapshot_eq_ok]
  refine ⟨_, ⟨none, rfl⟩, _, increase, _, ⟨_, ⟨none, rfl⟩, _, ⟨three, rfl⟩, ?_, sum⟩, rfl⟩
  rw [sum]
  exact three

/-- The report that leads from the first publication to the later one. -/
theorem firstPublication_reports :
    recordAttemptGenerationUsage firstPublication { leaseId := "lease-1", fencingToken := 1 }
      (callsUsage 3) = .ok laterPublication := by
  have none := callsUsage_valid (Nat.zero_le 9007199254740991)
  have three : ValidUsage (callsUsage 3) := callsUsage_valid (by decide)
  have found : findUsageGeneration firstPublication { leaseId := "lease-1", fencingToken := 1 } =
      .ok (some { fencingToken := 1, baseline := callsUsage 0, reported := callsUsage 0 }) := rfl
  have increase : attemptUsageIncrease (callsUsage 3) (callsUsage 0) = .ok (callsUsage 3) :=
    attemptUsageIncrease_iff.mpr ⟨three, none, three, (callsUsage_sub_zero 3).symm⟩
  simp only [recordAttemptGenerationUsage, found, bind_eq_ok, Except.ok.injEq, exists_eq_left',
    validateAttemptUsageSnapshot_eq_ok]
  refine ⟨_, ⟨three, rfl⟩, _, increase, ?_⟩
  exact bind_eq_ok.mpr ⟨_, laterPublication_derived, rfl⟩

/-- The later publication absorbs the first. -/
theorem laterPublication_absorbs_first :
    ∃ result, reconcileAttemptUsageAccounting (some laterPublication) firstPublication =
      .ok result ∧ SameAccounting result laterPublication := by
  obtain ⟨-, -, -, absorbs, valid⟩ := usage_reconciliation_is_a_join
  have grown : ValidUsageAccounting laterPublication := valid firstPublication laterPublication
    firstPublication_valid (.single (.recorded firstPublication_reports))
  exact (absorbs firstPublication laterPublication firstPublication_valid grown
    (.single (.recorded firstPublication_reports))).2

end PiAdaptative.TaskRuntime
