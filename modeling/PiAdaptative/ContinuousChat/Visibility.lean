import PiAdaptative.ContinuousChat.RecordProjection

/-!
# What an advance tells a reader

A transaction of the projection changes what a group comes to only together with an advance from a
cutoff at or before every record of the group.  A reader whose required revision did not move still
sees the record it saw, unless it read the record before the projection filed it into a group that
was already hidden.
-/

namespace PiAdaptative.ContinuousChat.RecordProjection

variable {ι : Type}

/-- The rows of the groups and of their records fit together below an id. -/
structure Filed (projection : RecordProjection ι) (next : Nat) : Prop where
  below : ∀ member ∈ projection.members, member.1 < next
  distinct : (projection.members.map Prod.fst).Nodup
  grouped : ∀ member ∈ projection.members, projection.groups.has member.2 = true
  populated : ∀ key, projection.groups.has key = true → ∃ id, (id, key) ∈ projection.members

/-- The frontier tells every advance made so far. -/
structure Dated (projection : RecordProjection ι) : Prop where
  frontier : IsFrontier projection.frontier projection.advances
  made : ∀ advance ∈ projection.advances, advance.2 ≤ projection.revision
  latest : projection.revision = 0 ∨ ∃ cutoff, (cutoff, projection.revision) ∈ projection.advances
  derived : projection.derivedRevision ≤ projection.revision

/-- A projection that only its own transactions wrote. -/
structure WellFormed (projection : RecordProjection ι) : Prop where
  filed : projection.Filed projection.indexedThrough
  dated : projection.Dated

theorem wellFormed_created (identity : ι) : (created identity).WellFormed where
  filed := {
    below := by simp [created]
    distinct := List.nodup_nil
    grouped := by simp [created]
    populated := by simp [created] }
  dated := {
    frontier := .empty
    made := by simp [created]
    latest := .inl rfl
    derived := le_rfl }

variable {projection : RecordProjection ι}

theorem memberKey_eq_some {next id : Nat} {key : GroupKey} (filed : projection.Filed next) :
    projection.memberKey id = some key ↔ (id, key) ∈ projection.members := by
  constructor
  · intro found
    obtain ⟨member, first, rfl⟩ := Option.map_eq_some_iff.mp found
    have same : member.1 = id := by simpa using List.find?_some first
    exact same ▸ List.mem_of_find?_eq_some first
  · intro present
    unfold memberKey
    cases first : projection.members.find? fun member => decide (member.1 = id) with
    | none => exact absurd (List.find?_eq_none.mp first _ present) (by simp)
    | some member =>
        have same : member.1 = id := by simpa using List.find?_some first
        have known := List.mem_of_find?_eq_some first
        rw [List.inj_on_of_nodup_map filed.distinct known present same]
        rfl

theorem memberKey_eq_none {next id : Nat} (filed : projection.Filed next) (unfiled : next ≤ id) :
    projection.memberKey id = none := by
  cases found : projection.memberKey id with
  | none => rfl
  | some key =>
      have below := filed.below _ ((memberKey_eq_some filed).mp found)
      omega

theorem firstMember_le {id : Nat} {key : GroupKey} (present : (id, key) ∈ projection.members) :
    ∃ first, projection.firstMember key = some first ∧
      ∀ other, (other, key) ∈ projection.members → first ≤ other := by
  have filed : ∀ other, (other, key) ∈ projection.members →
      other ∈ (projection.members.filter fun member => decide (member.2 = key)).map Prod.fst :=
    fun other member => List.mem_map.mpr ⟨(other, key), by simpa using member, rfl⟩
  cases found : projection.firstMember key with
  | none =>
      have empty := List.min?_eq_none_iff.mp found
      exact absurd (filed id present) (by simp [empty])
  | some first =>
      exact ⟨first, rfl, fun other member =>
        (List.min?_eq_some_iff.mp found).2 other (filed other member)⟩

theorem lowered_some (cutoff : Option Nat) (first : Nat) :
    ∃ least, lowered cutoff (some first) = some least ∧ least ≤ first ∧
      ∀ earlier, cutoff = some earlier → least ≤ earlier := by
  cases cutoff with
  | none => exact ⟨first, rfl, le_rfl, fun earlier found => by cases found⟩
  | some cutoff =>
      refine ⟨min cutoff first, rfl, min_le_right _ _, fun earlier found => ?_⟩
      cases found
      exact min_le_left _ _

theorem effective_stored (group : SourceGroup) (state : ReviewedState) :
    ({ group with state := state.stored } : SourceGroup).effective = state := by
  cases state <;> rfl

theorem effective_grown {old : Option SourceGroup} {candidate : Bool} (id : Nat)
    (kept : withholds old candidate = false) :
    (grown old id candidate).effective = (old.map SourceGroup.effective).getD .unchanged := by
  cases old with
  | none =>
      have plain : candidate = false := by simpa [withholds] using kept
      simp [grown, SourceGroup.effective, plain]
  | some group =>
      cases state : group.state <;> cases candidate <;> cases already : group.candidate <;>
        simp_all [grown, SourceGroup.effective, withholds]

theorem groupState_eq (projection : RecordProjection ι) (key : GroupKey) :
    projection.groupState key =
      ((projection.groups.get? key).map SourceGroup.effective).getD .unchanged := by
  unfold groupState
  cases projection.groups.get? key <;> rfl

theorem groupState_file (projection : RecordProjection ι) (id : Nat) (key other : GroupKey)
    (candidate : Bool) : (projection.file id key candidate).groupState other =
      if other = key then (grown (projection.groups.get? key) id candidate).effective
      else projection.groupState other := by
  simp only [groupState_eq, file, OrderedMap.get?_set]
  split <;> rfl

theorem memberKey_file (projection : RecordProjection ι) (id other : Nat) (key : GroupKey)
    (candidate : Bool) : (projection.file id key candidate).memberKey other =
      (projection.memberKey other).or (if id = other then some key else none) := by
  simp only [memberKey, file, List.find?_append, List.find?_singleton]
  cases projection.members.find? fun member => decide (member.1 = other) with
  | some found => rfl
  | none => by_cases same : id = other <;> simp [same]

/-- What a transaction under way has done since its start. -/
structure Traces (start : RecordProjection ι) (pass : Pass ι) : Prop where
  filed : pass.projection.Filed pass.next
  later : start.indexedThrough ≤ pass.next
  undated : pass.projection =
    { start with groups := pass.projection.groups, members := pass.projection.members }
  kept : ∀ id < start.indexedThrough, pass.projection.memberKey id = start.memberKey id
  reached : ∀ cutoff, pass.cutoff = some cutoff → cutoff < pass.next
  /-- A group that comes to something else was noticed from its first record on. -/
  noticed : ∀ key, pass.projection.groupState key ≠ start.groupState key →
    ∃ cutoff, pass.cutoff = some cutoff ∧
      ∀ id, (id, key) ∈ pass.projection.members → cutoff ≤ id

theorem Traces.start (filed : projection.Filed projection.indexedThrough) :
    Traces projection
      { projection := projection, next := projection.indexedThrough, cutoff := none } where
  filed := filed
  later := le_rfl
  undated := rfl
  kept _ _ := rfl
  reached _ found := by cases found
  noticed _ differs := absurd rfl differs

theorem Filed.weaken {next later : Nat} (filed : projection.Filed next) (more : next ≤ later) :
    projection.Filed later :=
  { filed with below := fun member known => (filed.below member known).trans_le more }

theorem Filed.file {id : Nat} (filed : projection.Filed id) (key : GroupKey) (candidate : Bool) :
    (projection.file id key candidate).Filed (id + 1) where
  below := by
    intro member known
    rcases List.mem_append.mp known with earlier | last
    · exact (filed.below member earlier).trans (Nat.lt_succ_self id)
    · obtain rfl := List.mem_singleton.mp last
      exact Nat.lt_succ_self id
  distinct := by
    have fresh : id ∉ projection.members.map Prod.fst := by
      rintro known
      obtain ⟨member, present, rfl⟩ := List.mem_map.mp known
      exact lt_irrefl _ (filed.below member present)
    simp only [RecordProjection.file, List.map_append, List.map_singleton]
    exact List.nodup_append.mpr ⟨filed.distinct, List.nodup_singleton _, by
      rintro earlier known _ last rfl
      exact fresh (List.mem_singleton.mp last ▸ known)⟩
  grouped := by
    intro member known
    rw [RecordProjection.file, OrderedMap.has_set]
    rcases List.mem_append.mp known with earlier | last
    · exact Bool.or_eq_true_iff.mpr (.inr (filed.grouped member earlier))
    · obtain rfl := List.mem_singleton.mp last
      simp
  populated := by
    intro other known
    rw [RecordProjection.file, OrderedMap.has_set, Bool.or_eq_true_iff, decide_eq_true_eq] at known
    rcases known with rfl | earlier
    · exact ⟨id, List.mem_append_right _ (List.mem_singleton.mpr rfl)⟩
    · obtain ⟨first, present⟩ := filed.populated other earlier
      exact ⟨first, List.mem_append_left _ present⟩

variable {start : RecordProjection ι}

/-- Filing a record is noticed where it withholds the group. -/
theorem Traces.file {pass : Pass ι} (traces : Traces start pass) (key : GroupKey)
    (candidate : Bool) : Traces start (pass.file key candidate) := by
  have present : (pass.next, key) ∈ (pass.projection.file pass.next key candidate).members :=
    List.mem_append_right _ (List.mem_singleton.mpr rfl)
  obtain ⟨first, found, least⟩ := firstMember_le present
  obtain ⟨cutoff, lower, early, before⟩ := lowered_some pass.cutoff first
  have atMost : first ≤ pass.next := least pass.next present
  refine {
    filed := traces.filed.file key candidate
    later := traces.later.trans (Nat.le_succ _)
    undated := ?undated
    kept := ?kept
    reached := ?reached
    noticed := ?noticed }
  case undated =>
    rw [Pass.file, RecordProjection.file, traces.undated]
  case kept =>
    intro id earlier
    have other : pass.next ≠ id := by have := traces.later; omega
    rw [Pass.file, memberKey_file, if_neg other, Option.or_none, traces.kept id earlier]
  case reached =>
    intro reached
    dsimp only [Pass.file]
    split
    · rw [found, lower]
      rintro ⟨⟩
      omega
    · intro same
      have := traces.reached reached same
      omega
  case noticed =>
    intro other differs
    dsimp only [Pass.file] at differs ⊢
    rw [groupState_file] at differs
    by_cases same : other = key
    · subst same
      rw [if_pos rfl] at differs
      cases withheld : withholds (pass.projection.groups.get? other) candidate with
      | true =>
          rw [if_pos rfl, found]
          exact ⟨cutoff, lower, fun id member => early.trans (least id member)⟩
      | false =>
          rw [effective_grown pass.next withheld, ← groupState_eq] at differs
          obtain ⟨cutoff, noted, covers⟩ := traces.noticed other differs
          refine ⟨cutoff, by simpa using noted, fun id member => ?_⟩
          rcases List.mem_append.mp member with earlier | last
          · exact covers id earlier
          · cases List.mem_singleton.mp last
            exact (traces.reached cutoff noted).le
    · rw [if_neg same] at differs
      obtain ⟨noted, known, covers⟩ := traces.noticed other differs
      have members : ∀ id, (id, other) ∈ (pass.projection.file pass.next key candidate).members →
          (id, other) ∈ pass.projection.members := by
        intro id member
        rcases List.mem_append.mp member with earlier | last
        · exact earlier
        · cases List.mem_singleton.mp last
          exact absurd rfl same
      split
      · rw [found]
        exact ⟨cutoff, lower, fun id member =>
          (before noted known).trans (covers id (members id member))⟩
      · exact ⟨noted, known, fun id member => covers id (members id member)⟩

variable {pass result : Pass ι}

/-- What one record of an index transaction does. -/
theorem indexRecord_eq_ok {record : ChatRecord} (indexed : indexRecord pass record = .ok result) :
    record.id = pass.next ∧
      ((groupKey record = none ∧ result = { pass with next := pass.next + 1 }) ∨
        ∃ key, groupKey record = some key ∧
          result = pass.file key (isLegacyParentProjectionCandidate record)) := by
  simp only [indexRecord, bind_eq_ok, throwPlainIf_eq_ok, exists_unit, not_not] at indexed
  obtain ⟨same, filed⟩ := indexed
  refine ⟨same, ?_⟩
  cases found : groupKey record with
  | none =>
      simp only [found, pure_eq_ok] at filed
      exact .inl ⟨rfl, filed.symm⟩
  | some key =>
      simp only [found, bind_eq_ok, throwPlainIf_eq_ok, exists_unit, pure_eq_ok] at filed
      exact .inr ⟨key, rfl, filed.2.symm⟩

theorem Traces.indexRecord {record : ChatRecord} (traces : Traces start pass)
    (indexed : indexRecord pass record = .ok result) :
    Traces start result ∧ result.projection.memberKey record.id = groupKey record := by
  obtain ⟨same, ⟨none, rfl⟩ | ⟨key, found, rfl⟩⟩ := indexRecord_eq_ok indexed
  · refine ⟨{ traces with
      filed := traces.filed.weaken (Nat.le_succ _)
      later := traces.later.trans (Nat.le_succ _)
      reached := fun cutoff known => (traces.reached cutoff known).trans (Nat.lt_succ_self _) }, ?_⟩
    rw [none]
    exact memberKey_eq_none traces.filed same.ge
  · refine ⟨traces.file key _, ?_⟩
    dsimp only [Pass.file]
    rw [memberKey_file, memberKey_eq_none traces.filed same.ge, same, if_pos rfl, found]
    rfl

/-- A decision is noticed where the group comes to something else. -/
theorem Traces.decideGroup {decision : ProjectionDecision} (traces : Traces start pass)
    (decided : decideGroup pass decision = .ok result) :
    Traces start result ∧ result.next = pass.next := by
  unfold RecordProjection.decideGroup at decided
  split at decided
  next => cases decided
  next group found =>
    simp only [bind_eq_ok, throwPlainIf_eq_ok, exists_unit, pure_eq_ok] at decided
    obtain ⟨-, rfl⟩ := decided
    have present : pass.projection.groups.has decision.key = true :=
      OrderedMap.has_eq_true.mpr ⟨group, found⟩
    obtain ⟨id, member⟩ := traces.filed.populated decision.key present
    obtain ⟨first, known, least⟩ := firstMember_le member
    obtain ⟨cutoff, lower, early, before⟩ := lowered_some pass.cutoff first
    have below : first < pass.next := by
      obtain ⟨row, inside, rfl⟩ := List.mem_map.mp (List.min?_mem known)
      exact traces.filed.below row (List.mem_filter.mp inside).1
    have state : ∀ key, ({ pass.projection with
        groups := pass.projection.groups.set decision.key
          { group with state := decision.state.stored } } : RecordProjection ι).groupState key =
        if key = decision.key then decision.state else pass.projection.groupState key := by
      intro key
      rw [groupState_eq, groupState_eq, OrderedMap.get?_set]
      split
      · rw [Option.map_some, effective_stored]
        rfl
      · rfl
    refine ⟨{
      filed := ?filed
      later := traces.later
      undated := ?undated
      kept := traces.kept
      reached := ?reached
      noticed := ?noticed }, rfl⟩
    case filed =>
      refine { traces.filed with
        grouped := fun member known => ?_
        populated := fun key known => ?_ }
      · rw [OrderedMap.has_set, Bool.or_eq_true_iff]
        exact .inr (traces.filed.grouped member known)
      · rw [OrderedMap.has_set, Bool.or_eq_true_iff, decide_eq_true_eq] at known
        rcases known with rfl | earlier
        · exact ⟨id, member⟩
        · exact traces.filed.populated key earlier
    case undated => rw [traces.undated]
    case reached =>
      intro reached
      dsimp only
      split
      · rw [known, lower]
        rintro ⟨⟩
        omega
      · exact traces.reached reached
    case noticed =>
      intro key differs
      rw [state] at differs
      by_cases same : key = decision.key
      · subst same
        rw [if_pos rfl] at differs
        split
        next =>
          rw [known]
          exact ⟨cutoff, lower, fun id member => early.trans (least id member)⟩
        next kept =>
          have unchanged : pass.projection.groupState decision.key = decision.state := by
            rw [groupState_eq, found]
            exact not_not.mp kept
          exact traces.noticed decision.key (unchanged ▸ differs)
      · rw [if_neg same] at differs
        obtain ⟨noted, marked, covers⟩ := traces.noticed key differs
        split
        · rw [known]
          exact ⟨cutoff, lower, fun id member => (before noted marked).trans (covers id member)⟩
        · exact ⟨noted, marked, covers⟩

theorem Traces.indexRecords {records : List ChatRecord} (traces : Traces start pass)
    (indexed : records.foldlM RecordProjection.indexRecord pass = .ok result) :
    Traces start result ∧ result.next = pass.next + records.length ∧
      (∀ id < pass.next, result.projection.memberKey id = pass.projection.memberKey id) ∧
      ∀ record ∈ records, result.projection.memberKey record.id = groupKey record := by
  induction records generalizing pass with
  | nil =>
      rw [List.foldlM_nil, pure_eq_ok] at indexed
      subst indexed
      exact ⟨traces, rfl, fun _ _ => rfl, by simp⟩
  | cons record records ih =>
      rw [List.foldlM_cons, bind_eq_ok] at indexed
      obtain ⟨middle, first, rest⟩ := indexed
      obtain ⟨after, filed⟩ := traces.indexRecord first
      obtain ⟨finally_, length, kept, others⟩ := ih after rest
      have passed : record.id = pass.next ∧ middle.next = pass.next + 1 ∧
          ∀ id < pass.next, middle.projection.memberKey id = pass.projection.memberKey id := by
        obtain ⟨same, ⟨-, rfl⟩ | ⟨key, -, rfl⟩⟩ := indexRecord_eq_ok first
        · exact ⟨same, rfl, fun _ _ => rfl⟩
        · refine ⟨same, rfl, fun id earlier => ?_⟩
          rw [Pass.file, memberKey_file, if_neg earlier.ne', Option.or_none]
      obtain ⟨same, next, before⟩ := passed
      refine ⟨finally_, by rw [length, next, List.length_cons]; omega, ?_, ?_⟩
      · intro id earlier
        rw [kept id (by omega), before id earlier]
      · intro other member
        rcases List.mem_cons.mp member with rfl | later
        · rw [kept other.id (by omega), filed]
        · exact others other later

variable {decisions : List ProjectionDecision}

theorem Traces.decideGroups (traces : Traces start pass)
    (decided : decisions.foldlM RecordProjection.decideGroup pass = .ok result) :
    Traces start result ∧ result.next = pass.next := by
  induction decisions generalizing pass with
  | nil =>
      rw [List.foldlM_nil, pure_eq_ok] at decided
      exact decided ▸ ⟨traces, rfl⟩
  | cons decision decisions ih =>
      rw [List.foldlM_cons, bind_eq_ok] at decided
      obtain ⟨middle, first, rest⟩ := decided
      obtain ⟨after, next⟩ := traces.decideGroup first
      obtain ⟨finally_, same⟩ := ih after rest
      exact ⟨finally_, same.trans next⟩

/-- The projection has not filed the record yet, and the group it belongs to is hidden. -/
def HiddenArrival (projection : RecordProjection ι) (record : ChatRecord) : Prop :=
  projection.indexedThrough ≤ record.id ∧
    ∃ key, groupKey record = some key ∧ projection.groupState key ≠ .unchanged

/-- What transactions may have done to a projection, as the readers of a log see it. -/
structure Continues (log : List ChatRecord) (before after : RecordProjection ι) : Prop where
  identity : after.identity = before.identity
  revision : before.revision ≤ after.revision
  advances : before.advances ⊆ after.advances
  later : ∀ advance ∈ after.advances, advance ∈ before.advances ∨ before.revision < advance.2
  /-- Without a new advance at or before a record it comes to what it came to before. -/
  reads : ∀ record ∈ log,
    (∀ advance ∈ after.advances, advance.1 ≤ record.id → advance ∈ before.advances) →
    ¬before.HiddenArrival record →
      ¬after.HiddenArrival record ∧ after.standing record.id = before.standing record.id

variable (log : List ChatRecord)

theorem Continues.refl (projection : RecordProjection ι) :
    Continues log projection projection where
  identity := rfl
  revision := le_rfl
  advances := List.Subset.refl _
  later _ member := .inl member
  reads _ _ _ seen := ⟨seen, rfl⟩

theorem Continues.trans {log longer : List ChatRecord} {first second third : RecordProjection ι}
    (begins : Continues log first second) (ends : Continues longer second third)
    (grows : log ⊆ longer) : Continues log first third where
  identity := ends.identity.trans begins.identity
  revision := begins.revision.trans ends.revision
  advances := List.Subset.trans begins.advances ends.advances
  later advance member := by
    rcases ends.later advance member with known | newer
    · exact begins.later advance known
    · exact .inr (begins.revision.trans_lt newer)
  reads record member quiet seen := by
    obtain ⟨still, same⟩ := begins.reads record member
      (fun advance known => quiet advance (ends.advances known)) seen
    obtain ⟨after, agree⟩ := ends.reads record (grows member)
      (fun advance known early => begins.advances (quiet advance known early)) still
    exact ⟨after, agree.trans same⟩

variable {before after : RecordProjection ι}

theorem groupState_congr (groups : after.groups = before.groups) (key : GroupKey) :
    after.groupState key = before.groupState key := by
  rw [groupState, groupState, groups]

theorem memberKey_congr (members : after.members = before.members) (id : Nat) :
    after.memberKey id = before.memberKey id := by
  rw [memberKey, memberKey, members]

variable {projection result : RecordProjection ι}

/-- What a finished transaction leaves. -/
theorem advanceTo_eq_ok {cutoff : Option Nat}
    (advanced : projection.advanceTo cutoff = .ok result) :
    result.identity = projection.identity ∧ result.indexedThrough = projection.indexedThrough ∧
      result.groups = projection.groups ∧ result.members = projection.members ∧
      result.derivedRevision = projection.derivedRevision ∧
      ((cutoff = none ∧ result = projection) ∨ ∃ reached, cutoff = some reached ∧
        result.revision = projection.revision + 1 ∧
        result.frontier = advanceFrontier projection.frontier reached (projection.revision + 1) ∧
        result.advances = projection.advances ++ [(reached, projection.revision + 1)]) := by
  cases cutoff with
  | none =>
      cases advanced
      exact ⟨rfl, rfl, rfl, rfl, rfl, .inl ⟨rfl, rfl⟩⟩
  | some reached =>
      simp only [advanceTo, advance, bind_eq_ok, throwPlainIf_eq_ok, exists_unit,
        pure_eq_ok] at advanced
      obtain ⟨-, rfl⟩ := advanced
      exact ⟨rfl, rfl, rfl, rfl, rfl, .inr ⟨reached, rfl, rfl, rfl, rfl⟩⟩

/-- Dates stay in order. -/
theorem Dated.advanceTo {cutoff : Option Nat} (dated : projection.Dated)
    (advanced : projection.advanceTo cutoff = .ok result) : result.Dated := by
  obtain ⟨-, -, -, -, derived, ⟨-, rfl⟩ | ⟨reached, -, revision, frontier, advances⟩⟩ :=
    advanceTo_eq_ok advanced
  · exact dated
  · refine {
      frontier := ?_
      made := ?_
      latest := .inr ⟨reached, ?_⟩
      derived := ?_ }
    · rw [frontier, advances]
      exact dated.frontier.advance reached fun advance member =>
        Nat.lt_succ_of_le (dated.made advance member)
    · rw [advances, revision]
      intro advance member
      rcases List.mem_append.mp member with earlier | last
      · exact (dated.made advance earlier).trans (Nat.le_succ _)
      · obtain rfl := List.mem_singleton.mp last
        exact le_rfl
    · rw [advances, revision]
      exact List.mem_append_right _ (List.mem_singleton.mpr rfl)
    · rw [derived, revision]
      exact dated.derived.trans (Nat.le_succ _)

/-- A finished transaction keeps the projection well formed and continues it for the readers. -/
theorem Traces.finish {start result : RecordProjection ι} {pass : Pass ι}
    (traces : Traces start pass) (formed : start.WellFormed)
    (filed : ∀ record ∈ log, start.indexedThrough ≤ record.id → record.id < pass.next →
      pass.projection.memberKey record.id = groupKey record)
    (finished : { pass.projection with indexedThrough := pass.next }.advanceTo pass.cutoff =
      .ok result) : result.WellFormed ∧ Continues log start result := by
  obtain ⟨identity, through, groups, members, -, dates⟩ := advanceTo_eq_ok finished
  have dated : ({ pass.projection with indexedThrough := pass.next } :
      RecordProjection ι).Dated := by
    rw [traces.undated]
    exact { formed.dated with }
  have revision : start.revision = pass.projection.revision := by rw [traces.undated]
  have advances : start.advances = pass.projection.advances := by rw [traces.undated]
  have states : ∀ key, result.groupState key = pass.projection.groupState key :=
    groupState_congr groups
  have keys : ∀ id, result.memberKey id = pass.projection.memberKey id := memberKey_congr members
  have rows : result.Filed result.indexedThrough := by
    have same : result.indexedThrough = pass.next := through
    rw [same]
    exact {
      below := fun member known => traces.filed.below member (members ▸ known)
      distinct := members ▸ traces.filed.distinct
      grouped := fun member known => groups ▸ traces.filed.grouped member (members ▸ known)
      populated := fun key known => by
        obtain ⟨id, present⟩ := traces.filed.populated key (groups ▸ known)
        exact ⟨id, members ▸ present⟩ }
  refine ⟨⟨rows, dated.advanceTo finished⟩, ?_⟩
  refine {
    identity := by rw [identity, traces.undated]
    revision := ?revision
    advances := ?advances
    later := ?later
    reads := ?reads }
  case revision =>
    rcases dates with ⟨-, rfl⟩ | ⟨_, -, next, -, -⟩
    · exact revision.le
    · rw [next, ← revision]
      exact Nat.le_succ _
  case advances =>
    rcases dates with ⟨-, rfl⟩ | ⟨_, -, -, -, made⟩
    · exact advances ▸ List.Subset.refl _
    · rw [made, ← advances]
      exact List.subset_append_left _ _
  case later =>
    intro advance member
    rcases dates with ⟨-, rfl⟩ | ⟨_, -, -, -, made⟩
    · exact .inl (advances ▸ member)
    · rw [made, ← advances, ← revision] at member
      rcases List.mem_append.mp member with earlier | last
      · exact .inl earlier
      · obtain rfl := List.mem_singleton.mp last
        exact .inr (Nat.lt_succ_self _)
  case reads =>
    intro record member quiet seen
    have unnoticed : ∀ key, (∀ id, (id, key) ∈ pass.projection.members → record.id < id) ∨
        pass.projection.groupState key = start.groupState key := by
      intro key
      by_contra both
      obtain ⟨before, differs⟩ := not_or.mp both
      obtain ⟨cutoff, noted, covers⟩ := traces.noticed key differs
      refine before fun id present => ?_
      have new : (cutoff, start.revision + 1) ∉ start.advances := fun known =>
        absurd (formed.dated.made _ known) (by simp)
      rcases dates with ⟨none, -⟩ | ⟨reached, found, -, -, made⟩
      · rw [noted] at none
        cases none
      · rw [noted] at found
        cases found
        have late : ¬cutoff ≤ record.id := fun early => new <| quiet _ (by
          rw [made, ← revision]
          exact List.mem_append_right _ (List.mem_singleton.mpr rfl)) early
        have := covers id present
        omega
    have shown : ∀ key, (record.id, key) ∈ pass.projection.members →
        result.groupState key = start.groupState key := by
      intro key present
      rw [states]
      exact (unnoticed key).resolve_left fun before => lt_irrefl _ (before record.id present)
    have bound : result.indexedThrough = pass.next := through
    rcases lt_or_ge record.id start.indexedThrough with old | fresh
    · refine ⟨fun arrival => absurd arrival.1 (by have := traces.later; omega), ?_⟩
      rw [standing, standing, keys, traces.kept record.id old]
      cases known : start.memberKey record.id with
      | none => rfl
      | some key =>
          rw [← traces.kept record.id old] at known
          exact shown key ((memberKey_eq_some traces.filed).mp known)
    · have unfiled := memberKey_eq_none formed.filed fresh
      have visible : ∀ key, groupKey record = some key → start.groupState key = .unchanged :=
        fun key known => not_not.mp fun hidden => seen ⟨fresh, key, known, hidden⟩
      rcases lt_or_ge record.id pass.next with indexed | beyond
      · refine ⟨fun arrival => absurd arrival.1 (by omega), ?_⟩
        rw [standing, standing, keys, filed record member fresh indexed, unfiled]
        cases known : groupKey record with
        | none => rfl
        | some key =>
            have present := (memberKey_eq_some traces.filed).mp
              ((filed record member fresh indexed).trans known)
            exact (shown key present).trans (visible key known)
      · refine ⟨?_, ?_⟩
        · rintro ⟨-, key, known, hidden⟩
          rw [states] at hidden
          have group : pass.projection.groups.has key = true := by
            cases absent : pass.projection.groups.has key with
            | true => rfl
            | false =>
                rw [groupState_eq, OrderedMap.has_eq_false.mp absent] at hidden
                exact absurd rfl hidden
          obtain ⟨id, present⟩ := traces.filed.populated key group
          rcases unnoticed key with before | same
          · have late := before id present
            have early := traces.filed.below _ present
            omega
          · exact hidden (same.trans (visible key known))
        · rw [standing, standing, keys, memberKey_eq_none traces.filed beyond, unfiled]

/-- Indexing the next records of a log. -/
theorem index_eq_ok {records log : List ChatRecord}
    (formed : projection.WellFormed) (indexed : projection.index records = .ok result)
    (covers : ∀ record ∈ log, projection.indexedThrough ≤ record.id →
      record.id < projection.indexedThrough + records.length → record ∈ records) :
    result.WellFormed ∧ Continues log projection result ∧
      result.indexedThrough = projection.indexedThrough + records.length := by
  simp only [index, bind_eq_ok] at indexed
  obtain ⟨pass, passed, finished⟩ := indexed
  obtain ⟨traces, next, -, filed⟩ := (Traces.start formed.filed).indexRecords passed
  obtain ⟨well, continues⟩ := traces.finish _ formed (fun record member fresh early =>
    filed record (covers record member fresh (next ▸ early))) finished
  exact ⟨well, continues, (advanceTo_eq_ok finished).2.1.trans next⟩

/-- Applying decisions. -/
theorem apply_eq_ok (formed : projection.WellFormed)
    (applied : projection.apply decisions = .ok result) :
    result.WellFormed ∧ Continues log projection result ∧
      result.indexedThrough = projection.indexedThrough := by
  simp only [apply, bind_eq_ok] at applied
  obtain ⟨pass, passed, finished⟩ := applied
  obtain ⟨traces, next⟩ := (Traces.start formed.filed).decideGroups passed
  replace next : pass.next = projection.indexedThrough := next
  have same : { pass.projection with indexedThrough := pass.next } = pass.projection := by
    rw [next, traces.undated]
  obtain ⟨well, continues⟩ := traces.finish log formed
    (fun record _ fresh early => absurd early (by omega)) (same ▸ finished)
  have through := (advanceTo_eq_ok finished).2.1
  exact ⟨well, continues, through.trans (by rw [traces.undated])⟩

/-- Marking what is derived as rebuilt. -/
theorem markDerived_eq_ok {revision : Nat} (formed : projection.WellFormed)
    (marked : projection.markDerived revision = .ok result) :
    result.WellFormed ∧ Continues log projection result ∧
      result.indexedThrough = projection.indexedThrough := by
  simp only [markDerived, bind_eq_ok, throwPlainIf_eq_ok, exists_unit, not_not,
    pure_eq_ok] at marked
  obtain ⟨rfl, rfl⟩ := marked
  refine ⟨⟨{ formed.filed with }, { formed.dated with derived := le_rfl }⟩, ?_, rfl⟩
  exact { Continues.refl log projection with }

/-- The required revision is that of the latest advance before the end. -/
theorem requiredRevision_eq_ok (dated : projection.Dated) (endId : Nat) :
    ∃ value, projection.requiredRevision endId = .ok value ∧
      (IsGreatest {revision | ∃ cutoff, (cutoff, revision) ∈ projection.advances ∧ cutoff < endId}
        value ∨ value = 0 ∧ ∀ advance ∈ projection.advances, endId ≤ advance.1) := by
  unfold requiredRevision
  cases found : latestBelow projection.frontier endId with
  | none =>
      refine ⟨0, ?_, .inr ⟨rfl, dated.frontier.latestBelow_eq_none found⟩⟩
      simp [throwPlainIf, pure, Except.pure, bind, Except.bind]
  | some value =>
      have greatest := dated.frontier.latestBelow_eq_some found
      obtain ⟨cutoff, made, -⟩ := greatest.1
      refine ⟨value, ?_, .inl greatest⟩
      have bound : ¬projection.revision < value := not_lt.mpr (dated.made _ made)
      simp [throwPlainIf, bound, pure, Except.pure, bind, Except.bind]

/-- A required revision that did not pass an earlier revision knows of no new advance. -/
theorem Continues.quiet {log : List ChatRecord} (continues : Continues log before after)
    (dated : after.Dated) {endId required : Nat}
    (found : after.requiredRevision endId = .ok required) (known : required ≤ before.revision) :
    ∀ advance ∈ after.advances, advance.1 < endId → advance ∈ before.advances := by
  intro advance member early
  refine (continues.later advance member).resolve_right fun newer => ?_
  obtain ⟨value, same, greatest | ⟨-, none⟩⟩ := requiredRevision_eq_ok dated endId
  · cases found.symm.trans same
    have := greatest.2 ⟨advance.1, member, early⟩
    omega
  · exact absurd early (not_lt.mpr (none advance member))

end PiAdaptative.ContinuousChat.RecordProjection
