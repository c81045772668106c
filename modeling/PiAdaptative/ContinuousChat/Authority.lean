import PiAdaptative.ContinuousChat.ChatStore
import PiAdaptative.ContinuousChat.Visibility

/-!
# The authority of the projection

A root names the projection it was written under.  Every later root names it on, and an operation
that finds another projection in its place refuses to work, unless the repair of an interrupted
append wrote a root before its process had opened the projection.
-/

namespace PiAdaptative.ContinuousChat

open Operation (Triple)

variable {ι : Type}

/-- A later root names the identity an earlier one names, at the same or a later revision. -/
def Carries (earlier later : ChatRoot ι) : Prop :=
  ∀ named, earlier.authority = some named →
    ∃ revision, later.authority = some (named.1, revision) ∧ named.2 ≤ revision

namespace ChatState

/-- The projection of an authority is in its place. -/
def Holds (state : ChatState ι) (named : ι × Nat) : Prop :=
  ∃ projection, state.projection = some (.ready projection) ∧
    projection.identity = named.1 ∧ named.2 ≤ projection.revision

/-- The root publishes all that the log and its index hold. -/
def Published (state : ChatState ι) : Prop :=
  state.index.length ≤ state.root.nextId ∧ ChatStore.unindexedLines state = []

/-- The roots carry their authority on, up to the present one. -/
structure Rooted (state : ChatState ι) : Prop where
  permanent : state.roots.Pairwise Carries
  present : ∀ root ∈ state.roots, Carries root state.root

/-- The projection that the root names is open for writing. -/
structure Opened (state : ChatState ι) : Prop where
  rooted : state.Rooted
  writable : state.projectionWritable = true
  authority : ∀ named, state.root.authority = some named → state.Holds named

/-- No root has named a projection, and none is open. -/
structure Unnamed (state : ChatState ι) : Prop where
  rooted : state.Rooted
  closed : state.projectionWritable = false
  authority : state.root.authority = none

/-- What a locked operation may start from. -/
inductive Ready (state : ChatState ι) : Prop where
  | opened (holds : state.Opened)
  | unnamed (holds : state.Unnamed)
  | published (rooted : state.Rooted) (all : state.Published)

/-- What holds between any two changes. -/
structure Kept (state : ChatState ι) : Prop where
  rooted : state.Rooted
  opened : state.projectionWritable = true →
    (∀ named, state.root.authority = some named → state.Holds named) ∨ state.Published

variable {state : ChatState ι}

theorem Opened.kept (opened : state.Opened) : state.Kept :=
  ⟨opened.rooted, fun _ => .inl opened.authority⟩

theorem Unnamed.kept (unnamed : state.Unnamed) : state.Kept :=
  ⟨unnamed.rooted, fun open_ => absurd open_ (by simp [unnamed.closed])⟩

variable {before after : ChatState ι}

/-- Changes of the log, its index and the tree leave the authority alone. -/
theorem Opened.touch (opened : before.Opened) (root : after.root = before.root)
    (roots : after.roots = before.roots) (projection : after.projection = before.projection)
    (writable : after.projectionWritable = before.projectionWritable) : after.Opened where
  rooted := ⟨roots ▸ opened.rooted.permanent, root ▸ roots ▸ opened.rooted.present⟩
  writable := writable.trans opened.writable
  authority named found := by
    obtain ⟨present, same⟩ := opened.authority named (root ▸ found)
    exact ⟨present, projection ▸ same⟩

theorem Unnamed.touch (unnamed : before.Unnamed) (root : after.root = before.root)
    (roots : after.roots = before.roots)
    (writable : after.projectionWritable = before.projectionWritable) : after.Unnamed where
  rooted := ⟨roots ▸ unnamed.rooted.permanent, root ▸ roots ▸ unnamed.rooted.present⟩
  closed := writable.trans unnamed.closed
  authority := root ▸ unnamed.authority

theorem Ready.kept (ready : state.Ready) : state.Kept := by
  cases ready with
  | opened holds => exact holds.kept
  | unnamed holds => exact holds.kept
  | published rooted all => exact ⟨rooted, fun _ => .inr all⟩

/-- A root that carries the present authority on may be written. -/
theorem Rooted.write (rooted : state.Rooted) {root : ChatRoot ι}
    (carries : Carries state.root root) {after : ChatState ι} (written : after.root = root)
    (roots : after.roots = state.roots ++ [root]) : after.Rooted := by
  have all : ∀ earlier ∈ state.roots, Carries earlier root := by
    intro earlier member named found
    obtain ⟨revision, present, least⟩ := rooted.present earlier member named found
    obtain ⟨later, carried, more⟩ := carries _ present
    exact ⟨later, carried, least.trans more⟩
  refine ⟨?_, ?_⟩
  · rw [roots]
    exact List.pairwise_append.mpr ⟨rooted.permanent, List.pairwise_singleton _ _,
      fun earlier member last isLast => List.mem_singleton.mp isLast ▸ all earlier member⟩
  · rw [roots, written]
    intro earlier member
    rcases List.mem_append.mp member with before | last
    · exact all earlier before
    · obtain rfl := List.mem_singleton.mp last
      exact fun named found => ⟨named.2, found, le_rfl⟩

end ChatState

namespace RecordProjection

/-- The same projection, at the same or a later revision. -/
def Succeeds (before after : RecordProjection ι) : Prop :=
  after.identity = before.identity ∧ before.revision ≤ after.revision

theorem Succeeds.advanceTo {projection present result : RecordProjection ι} {cutoff : Option Nat}
    (same : present.identity = projection.identity ∧ present.revision = projection.revision)
    (advanced : present.advanceTo cutoff = .ok result) : projection.Succeeds result := by
  obtain ⟨identity, -, -, -, -, ⟨-, rfl⟩ | ⟨_, -, revision, -, -⟩⟩ := advanceTo_eq_ok advanced
  · exact ⟨same.1, same.2.ge⟩
  · exact ⟨identity.trans same.1, by rw [revision, same.2]; exact Nat.le_succ _⟩

variable {projection result : RecordProjection ι}

theorem Succeeds.index {records : List ChatRecord}
    (indexed : projection.index records = .ok result) : projection.Succeeds result := by
  simp only [RecordProjection.index, bind_eq_ok] at indexed
  obtain ⟨pass, passed, finished⟩ := indexed
  refine Succeeds.advanceTo ?_ finished
  refine foldlM_preserves (fun pass => pass.projection.identity = projection.identity ∧
    pass.projection.revision = projection.revision) passed ⟨rfl, rfl⟩ ?_
  intro before record after same step
  obtain ⟨-, ⟨-, rfl⟩ | ⟨key, -, rfl⟩⟩ := indexRecord_eq_ok step <;> exact same

theorem Succeeds.apply {decisions : List ProjectionDecision}
    (applied : projection.apply decisions = .ok result) : projection.Succeeds result := by
  simp only [RecordProjection.apply, bind_eq_ok] at applied
  obtain ⟨pass, passed, finished⟩ := applied
  refine Succeeds.advanceTo ?_ finished
  refine foldlM_preserves (fun pass => pass.projection.identity = projection.identity ∧
    pass.projection.revision = projection.revision) passed ⟨rfl, rfl⟩ ?_
  intro before decision after same step
  unfold decideGroup at step
  split at step
  next => cases step
  next =>
    simp only [bind_eq_ok, throwPlainIf_eq_ok, exists_unit, pure_eq_ok] at step
    obtain ⟨-, rfl⟩ := step
    exact same

theorem Succeeds.markDerived {revision : Nat}
    (marked : projection.markDerived revision = .ok result) : projection.Succeeds result := by
  simp only [RecordProjection.markDerived, bind_eq_ok, throwPlainIf_eq_ok, exists_unit,
    pure_eq_ok] at marked
  obtain ⟨-, rfl⟩ := marked
  exact ⟨rfl, le_rfl⟩

end RecordProjection

variable (drawn : ι) (root : ChatRoot ι)

namespace ChatStore

open ChatState

/-- Between two changes of an operation everything kept stays kept. -/
def Keeps (_ after : ChatState ι) : Prop := after.Kept

theorem commit_spec {before after : RecordProjection ι} (succeeds : before.Succeeds after)
    (root : ChatRoot ι) :
    Triple (fun state => (state.Opened ∧ state.root = root) ∧
        state.projection = some (.ready before)) (commit after) Keeps
      fun _ state => (state.Opened ∧ state.root = root) ∧
        state.projection = some (.ready after) := by
  have opened : ∀ state : ChatState ι, (state.Opened ∧ state.root = root) ∧
      state.projection = some (.ready before) →
      ({ state with projection := some (.ready after) } : ChatState ι).Opened := by
    rintro state ⟨⟨opened, -⟩, found⟩
    refine ⟨⟨opened.rooted.permanent, opened.rooted.present⟩, opened.writable, ?_⟩
    intro named authority
    obtain ⟨present, same, identity, least⟩ := opened.authority named authority
    rw [found] at same
    cases same
    exact ⟨after, rfl, succeeds.1.trans identity, least.trans succeeds.2⟩
  exact Triple.move (fun state holds => (opened state holds).kept)
    fun state holds => ⟨⟨opened state holds, holds.1.2⟩, rfl⟩

theorem namedRoot_opened :
    Triple (fun state => state.Opened) (namedRoot root) Keeps fun named state =>
      state.Opened ∧ ∃ projection, state.projection = some (.ready projection) ∧
        named.authority = some (projection.identity, projection.revision) := by
  refine Triple.read fun state => Triple.ite (fun _ => ?_) fun closed => ?_
  · refine openedMeta_spec.bind fun projection => Triple.pure _ ?_
    rintro present ⟨⟨rfl, opened⟩, found⟩
    exact ⟨opened, projection, found, rfl⟩
  · refine Triple.pure _ ?_
    rintro present ⟨rfl, opened⟩
    exact absurd opened.writable closed

theorem namedRoot_unnamed :
    Triple (fun state => state.Unnamed) (namedRoot root) Keeps fun named state =>
      state.Unnamed ∧ named = root := by
  refine Triple.read fun state => Triple.ite (fun opened => ?_) fun _ => ?_
  · rintro present ⟨rfl, unnamed⟩
    exact absurd opened (by simp [unnamed.closed])
  · refine Triple.pure _ ?_
    rintro present ⟨rfl, unnamed⟩
    exact ⟨unnamed, rfl⟩

/-- A root written with the projection open names that projection. -/
theorem writeRootLocked_spec :
    Triple (fun state => state.Opened) (writeRootLocked root) Keeps
      fun written state => state.Opened ∧ state.root = written := by
  refine (namedRoot_opened root).bind fun named => ?_
  have written : ∀ present : ChatState ι, (present.Opened ∧
      ∃ projection, present.projection = some (.ready projection) ∧
        named.authority = some (projection.identity, projection.revision)) →
      ({ present with
        root := named
        roots := present.roots ++ [named]
        indexedRevision := some named.revision } : ChatState ι).Opened := by
    rintro present ⟨opened, projection, found, authority⟩
    refine ⟨opened.rooted.write ?_ rfl rfl, opened.writable, ?_⟩
    · intro earlier named
      obtain ⟨other, same, identity, least⟩ := opened.authority earlier named
      rw [found] at same
      cases same
      exact ⟨projection.revision, identity ▸ authority, least⟩
    · intro other named
      cases authority.symm.trans named
      exact ⟨projection, found, rfl, le_rfl⟩
  refine Triple.through (fun _ (present : ChatState ι) => present.Opened ∧
    present.root = named) ?_ fun _ => Triple.pure _ fun _ holds => holds
  exact Triple.move (fun present holds => (written present holds).kept)
    fun present holds => ⟨written present holds, rfl⟩

theorem writeRootLocked_unnamed {root : ChatRoot ι} (none : root.authority = none) :
    Triple (fun state => state.Unnamed) (writeRootLocked root) Keeps
      fun written state => state.Unnamed ∧ state.root = written := by
  refine (namedRoot_unnamed root).bind fun named => ?_
  have written : ∀ present : ChatState ι, (present.Unnamed ∧ named = root) →
      ({ present with
        root := named
        roots := present.roots ++ [named]
        indexedRevision := some named.revision } : ChatState ι).Unnamed := by
    rintro present ⟨unnamed, rfl⟩
    refine ⟨unnamed.rooted.write ?_ rfl rfl, unnamed.closed, none⟩
    intro earlier found
    rw [unnamed.authority] at found
    cases found
  refine Triple.through (fun _ (present : ChatState ι) => present.Unnamed ∧
    present.root = named) ?_ fun _ => Triple.pure _ fun _ holds => holds
  exact Triple.move (fun present holds => (written present holds).kept)
    fun present holds => ⟨written present holds, rfl⟩

theorem extendIndex_opened (places : List Nat) (root : ChatRoot ι) :
    Triple (fun state => state.Opened ∧ state.root = root) (extendIndex places) Keeps
      fun _ state => state.Opened ∧ state.root = root := by
  refine Triple.moves (fun state => state.Opened ∧ state.root = root)
    (fun _ holds => holds) ?_ fun _ holds => holds
  intro change member state holds
  obtain ⟨place, -, rfl⟩ := List.mem_map.mp member
  have opened : ({ state with index := state.index ++ [place] } : ChatState ι).Opened :=
    holds.1.touch rfl rfl rfl rfl
  exact ⟨opened.kept, opened, holds.2⟩

theorem extendIndex_unnamed (places : List Nat) (root : ChatRoot ι) :
    Triple (fun state => state.Unnamed ∧ state.root = root) (extendIndex places)
      Keeps fun _ state => state.Unnamed ∧ state.root = root := by
  refine Triple.moves (fun state => state.Unnamed ∧ state.root = root)
    (fun _ holds => holds) ?_ fun _ holds => holds
  intro change member state holds
  obtain ⟨place, -, rfl⟩ := List.mem_map.mp member
  have unnamed : ({ state with index := state.index ++ [place] } : ChatState ι).Unnamed :=
    holds.1.touch rfl rfl rfl
  exact ⟨unnamed.kept, unnamed, holds.2⟩

/-- The repair of the message index leaves a state that the projection may be opened in. -/
theorem indexLocked_spec :
    Triple (fun state => state.Ready ∧ state.root = root) (indexLocked root) Keeps
      fun written state => state.Ready ∧ state.root = written := by
  refine Triple.read fun state => ?_
  refine Triple.through (fun _ (present : ChatState ι) => (present = state ∧
    state.Ready ∧ state.root = root) ∧ ¬state.index.length < root.nextId) ?_ fun _ => ?_
  · exact Triple.failIf fun passed present holds => ⟨holds, passed⟩
  refine Triple.through (fun _ (present : ChatState ι) => (present = state ∧
    state.Ready ∧ state.root = root) ∧ ¬state.index.length < root.nextId) ?_ fun _ => ?_
  · exact Triple.failIf fun _ present holds => holds
  intro present holds
  obtain ⟨⟨rfl, ready, rfl⟩, covered⟩ := holds
  cases ready with
  | opened opened =>
      refine Triple.bind (extendIndex_opened _ present.root) (fun _ => ?_) present
        ⟨opened, rfl⟩
      refine Triple.ite (fun _ => ?_) fun _ => ?_
      · exact Triple.pure _ fun after holds => ⟨.opened holds.1, holds.2⟩
      · exact (writeRootLocked_spec _).mono (fun _ holds => holds.1) (fun _ _ kept => kept)
          fun _ _ holds => ⟨.opened holds.1, holds.2⟩
  | unnamed unnamed =>
      refine Triple.bind (extendIndex_unnamed _ present.root) (fun _ => ?_) present
        ⟨unnamed, rfl⟩
      refine Triple.ite (fun _ => ?_) fun _ => ?_
      · exact Triple.pure _ fun after holds => ⟨.unnamed holds.1, holds.2⟩
      · exact (writeRootLocked_unnamed rfl).mono (fun _ holds => holds.1) (fun _ _ kept => kept)
          fun _ _ holds => ⟨.unnamed holds.1, holds.2⟩
  | published rooted all =>
      -- Nothing is left out, so neither the index nor the root is written.
      have same : present.index.length = present.root.nextId :=
        le_antisymm all.1 (not_lt.mp covered)
      simp only [all.2, List.length_nil, Nat.add_zero, if_pos same]
      exact ⟨.published rooted all, rfl⟩

theorem createTables_spec (root : ChatRoot ι) :
    Triple (fun state => (state.Ready ∧ state.root = root) ∧
        state.projectionWritable = false) (createTables drawn root.authority.isNone) Keeps
      fun _ state => state.Kept ∧ state.projectionWritable = true ∧ state.root = root := by
  refine Triple.through (fun _ (state : ChatState ι) => ((state.Ready ∧
    state.root = root) ∧ state.projectionWritable = false) ∧ root.authority = none) ?_ fun _ => ?_
  · refine Triple.failIf fun allowed state holds => ⟨holds, ?_⟩
    simpa using allowed
  · have kept : ∀ state : ChatState ι, ((state.Ready ∧ state.root = root) ∧
        state.projectionWritable = false) ∧ root.authority = none →
        ({ state with
          projection := some (.ready (.created drawn))
          projectionWritable := true } : ChatState ι).Kept := by
      rintro state ⟨⟨⟨ready, rfl⟩, -⟩, none⟩
      have rooted := ready.kept.rooted
      refine ⟨⟨rooted.permanent, rooted.present⟩, fun _ => .inl fun named found => ?_⟩
      rw [none] at found
      cases found
    exact Triple.move (fun state holds => kept state holds)
      fun state holds => ⟨kept state holds, rfl, holds.1.1.2⟩

/-- Where an operation may start, the projection may be opened. -/
theorem openProjection_spec (root : ChatRoot ι) :
    Triple (fun state => state.Ready ∧ state.root = root)
      (openProjection drawn root.authority.isNone) Keeps
      fun _ state => state.Kept ∧ state.projectionWritable = true ∧ state.root = root := by
  refine Triple.read fun state => Triple.ite (fun opened => ?_) fun closed => ?_
  · refine Triple.pure _ ?_
    rintro present ⟨rfl, ready, same⟩
    exact ⟨ready.kept, opened, same⟩
  · have shut : state.projectionWritable = false := by simpa using closed
    have mark : Triple (fun present => present = state ∧ state.Ready ∧ state.root = root)
        (Operation.move fun state => { state with projectionWritable := true }) Keeps
        fun _ state => state.Kept ∧ state.projectionWritable = true ∧ state.root = root := by
      have kept : state.Ready →
          ({ state with projectionWritable := true } : ChatState ι).Kept := by
        intro ready
        have rooted := ready.kept.rooted
        refine ⟨⟨rooted.permanent, rooted.present⟩, fun _ => ?_⟩
        cases ready with
        | opened holds => exact absurd holds.writable closed
        | published _ all => exact .inr all
        | unnamed holds =>
            refine .inl fun named found => ?_
            rw [holds.authority] at found
            cases found
      refine Triple.move ?_ ?_
      · rintro present ⟨rfl, ready, -⟩
        exact kept ready
      · rintro present ⟨rfl, ready, same⟩
        exact ⟨kept ready, rfl, same⟩
    rcases found : state.projection with _ | ⟨_ | _ | _ | projection⟩
    · refine Triple.bind ?_ fun _ => createTables_spec drawn root
      have ready : state.Ready → ({ state with projection := some .blank } : ChatState ι).Ready := by
        intro ready
        cases ready with
        | opened holds => exact absurd holds.writable closed
        | unnamed holds => exact .unnamed (holds.touch rfl rfl rfl)
        | published rooted all => exact .published ⟨rooted.permanent, rooted.present⟩ all
      refine Triple.move ?_ ?_
      · rintro present ⟨rfl, holds, -⟩
        exact (ready holds).kept
      · rintro present ⟨rfl, holds, same⟩
        exact ⟨⟨ready holds, same⟩, shut⟩
    · refine (createTables_spec drawn root).starting ?_
      rintro present ⟨rfl, ready, same⟩
      exact ⟨⟨ready, same⟩, shut⟩
    · exact Triple.fail _
    · exact mark
    · exact mark

theorem indexRange_spec (nextId : Nat) (root : ChatRoot ι) (rounds start : Nat) :
    Triple (fun state => state.Opened ∧ state.root = root)
      (indexRange nextId rounds start) Keeps
      fun _ state => state.Opened ∧ state.root = root := by
  induction rounds generalizing start with
  | zero => exact Triple.pure _ fun _ holds => holds
  | succ rounds ih =>
      refine Triple.ite (fun _ => ?_) fun _ => Triple.pure _ fun _ holds => holds
      refine Triple.read fun state => ?_
      refine Triple.bind (Triple.lift fun records read present holds => holds)
        fun records => ?_
      refine Triple.bind openedMeta_spec fun projection => ?_
      refine Triple.through (fun indexed (present : ChatState ι) =>
        ((present.Opened ∧ present.root = root) ∧
          present.projection = some (.ready projection)) ∧
        projection.Succeeds indexed) ?_ fun indexed => ?_
      · refine Triple.lift fun indexed done present holds => ?_
        obtain ⟨⟨rfl, opened⟩, found⟩ := holds
        exact ⟨⟨opened, found⟩, .index done⟩
      · intro present holds
        refine ((commit_spec holds.2 root).bind fun _ =>
          (ih (start + 256)).starting fun _ holds => holds.1) present holds.1

section Locked

variable [DecidableEq ι]

/-- Once the projection is open and checked, the root names it. -/
theorem indexProjectionLocked_spec (root : ChatRoot ι) :
    Triple (fun state => state.Ready ∧ state.root = root)
      (indexProjectionLocked drawn root) Keeps
      fun written state => state.Opened ∧ state.root = written := by
  refine Triple.read fun state => ?_
  refine Triple.through (fun _ (present : ChatState ι) =>
    present.Ready ∧ present.root = root) ?_ fun _ => ?_
  · refine Triple.failIf fun _ present holds => ?_
    obtain ⟨rfl, ready⟩ := holds
    exact ready
  refine (openProjection_spec drawn root).bind fun _ => openedMeta_spec.bind fun projection => ?_
  refine Triple.through (fun _ (present : ChatState ι) => (present.Opened ∧
    present.root = root) ∧ present.projection = some (.ready projection)) ?_ fun _ => ?_
  · refine Triple.failIf fun checked present holds => ?_
    obtain ⟨⟨kept, writable, rfl⟩, found⟩ := holds
    refine ⟨⟨⟨kept.rooted, writable, fun named authority => ?_⟩, rfl⟩, found⟩
    refine ⟨projection, found, ?_, ?_⟩
    · by_contra differs
      exact checked ⟨named, authority, .inl fun same => differs same.symm⟩
    · by_contra behind
      exact checked ⟨named, authority, .inr (not_le.mp behind)⟩
  refine Triple.through (fun _ (present : ChatState ι) => present.Opened ∧
    present.root = root) ?_ fun _ => ?_
  · exact Triple.failIf fun _ present holds => holds.1
  refine (indexRange_spec _ root _ _).bind fun _ => openedMeta_spec.bind fun projection => ?_
  refine Triple.ite (fun _ => Triple.pure _ fun _ holds => holds.1) fun _ => ?_
  exact (writeRootLocked_spec _).starting fun _ holds => holds.1.1

theorem repairLocked_spec :
    Triple (fun state => state.Ready) (repairLocked drawn) Keeps
      fun written state => state.Ready ∧ state.root = written := by
  refine Triple.read fun state => Triple.ite (fun _ => ?_) fun _ => ?_
  · refine Triple.pure _ ?_
    rintro present ⟨rfl, ready⟩
    exact ⟨ready, rfl⟩
  · refine ((indexLocked_spec state.root).starting ?_).bind fun root => ?_
    · rintro present ⟨rfl, ready⟩
      exact ⟨ready, rfl⟩
    refine (indexProjectionLocked_spec drawn root).bind fun root => ?_
    have marked : ∀ present : ChatState ι, present.Opened → ({ present with
        indexedRevision := some root.revision } : ChatState ι).Opened :=
      fun present holds => holds.touch rfl rfl rfl rfl
    refine Triple.through (fun _ (present : ChatState ι) =>
      present.Opened ∧ present.root = root) (Triple.move ?_ ?_) fun _ =>
        Triple.pure _ ?_
    · exact fun present holds => (marked present holds.1).kept
    · exact fun present holds => ⟨marked present holds.1, holds.2⟩
    · exact fun present holds => ⟨.opened holds.1, holds.2⟩

/-- A reconciled store has the projection of its root open. -/
theorem reconcileLocked_spec :
    Triple (fun state => state.Ready) (reconcileLocked drawn) Keeps
      fun written state => state.Opened ∧ state.root = written := by
  refine (repairLocked_spec drawn).bind fun root => ?_
  refine (indexProjectionLocked_spec drawn root).bind fun root => ?_
  refine openedMeta_spec.bind fun projection => ?_
  refine Triple.bind (Triple.lift fun cutoff _ present holds => holds.1)
    fun cutoff => ?_
  refine Triple.ite (fun _ => ?_) fun _ => Triple.pure _ fun _ holds => holds
  refine Triple.bind ((writeRootLocked_spec _).starting fun _ holds => holds.1) fun root => ?_
  refine openedMeta_spec.bind fun projection => ?_
  refine Triple.through (fun derived (present : ChatState ι) =>
    ((present.Opened ∧ present.root = root) ∧ present.projection = some (.ready projection)) ∧
      projection.Succeeds derived) ?_ fun derived => ?_
  · exact Triple.lift fun derived done present holds => ⟨holds, .markDerived done⟩
  · intro present holds
    exact ((commit_spec holds.2 root).bind fun _ =>
      Triple.pure _ fun _ holds => holds.1) present holds.1

theorem prepareProjectionMaintenance_spec :
    Triple (fun state => state.Ready) (prepareProjectionMaintenance drawn) Keeps
      fun _ state => state.Opened := by
  refine Triple.read fun state => Triple.ite (fun _ => ?_) fun _ => ?_
  · refine ((indexProjectionLocked_spec drawn state.root).starting ?_).bind fun _ =>
        Triple.pure _ fun _ holds => holds.1
    rintro present ⟨rfl, ready⟩
    exact ⟨ready, rfl⟩
  · refine ((reconcileLocked_spec drawn).starting ?_).bind fun _ =>
      Triple.pure _ fun _ holds => holds.1
    rintro present ⟨rfl, ready⟩
    exact ready

omit [DecidableEq ι] in
theorem commitRecordsLocked_spec (created : List ChatRecord) (root : ChatRoot ι) :
    Triple (fun state => state.Opened) (commitRecordsLocked created root) Keeps
      fun _ state => state.Opened := by
  refine Triple.read fun state => ?_
  refine Triple.through (fun _ (present : ChatState ι) => present.Opened) ?_ fun _ => ?_
  · refine Triple.failIf fun _ present holds => ?_
    obtain ⟨rfl, opened⟩ := holds
    exact opened
  refine Triple.through (fun _ (present : ChatState ι) => present.Opened) ?_ fun _ => ?_
  · refine Triple.moves (fun present => present.Opened) (fun _ holds => holds) ?_
      fun _ holds => holds
    intro change member present holds
    obtain ⟨line, -, rfl⟩ := List.mem_map.mp member
    have opened : ({ present with log := present.log ++ [line] } : ChatState ι).Opened :=
      holds.touch rfl rfl rfl rfl
    exact ⟨opened.kept, opened⟩
  refine Triple.through (fun _ (present : ChatState ι) => present.Opened) ?_ fun _ => ?_
  · intro present holds
    exact (extendIndex_opened _ present.root).ending (fun _ _ holds => holds.1) present
      ⟨holds, rfl⟩
  · exact (writeRootLocked_spec _).ending fun _ _ holds => holds.1

theorem appendLocked_spec (inputs : List (List AppendUnit)) :
    Triple (fun state => state.Ready) (appendLocked drawn inputs) Keeps
      fun _ state => state.Opened := by
  refine (reconcileLocked_spec drawn).bind fun root => Triple.read fun state => ?_
  refine Triple.through (fun _ (present : ChatState ι) => present.Opened) ?_
    fun created => ?_
  · refine Triple.lift fun _ _ present holds => ?_
    obtain ⟨rfl, opened, -⟩ := holds
    exact opened
  refine Triple.ite (fun _ => Triple.pure _ fun _ holds => holds) fun _ => ?_
  exact (commitRecordsLocked_spec created root).bind fun _ =>
    Triple.pure _ fun _ holds => holds

theorem appendNodeLocked_spec (node : TreeNode) (superseded : Bool) :
    Triple (fun state => state.Ready) (appendNodeLocked drawn node superseded) Keeps
      fun _ state => state.Opened := by
  refine (reconcileLocked_spec drawn).bind fun root => ?_
  refine Triple.through (fun _ (present : ChatState ι) => present.Opened) ?_ fun _ => ?_
  · exact Triple.failIf fun _ present holds => holds.1
  refine Triple.read fun state => openedMeta_spec.bind fun projection => ?_
  refine Triple.through (fun _ (present : ChatState ι) => present.Opened) ?_
    fun current => ?_
  · refine Triple.lift fun _ _ present holds => ?_
    obtain ⟨⟨rfl, opened⟩, -⟩ := holds
    exact opened
  refine Triple.through (fun _ (present : ChatState ι) => present.Opened) ?_ fun _ => ?_
  · exact Triple.failIf fun _ present holds => holds
  refine Triple.bind (Triple.lift fun _ _ present holds => holds)
    fun existing => ?_
  cases existing with
  | some other => exact Triple.failIf fun _ present holds => holds
  | none =>
      refine Triple.bind (Triple.lift fun _ _ present holds => holds)
        fun _ => ?_
      refine Triple.through (fun _ (present : ChatState ι) => present.Opened) ?_
        fun _ => ?_
      · have grown : ∀ present : ChatState ι, present.Opened → ({ present with
            tree := present.tree ++ [node] } : ChatState ι).Opened :=
          fun present holds => holds.touch rfl rfl rfl rfl
        exact Triple.move (fun present holds => (grown present holds).kept) grown
      · exact (writeRootLocked_spec _).bind fun _ => Triple.pure _ fun _ holds => holds.1

theorem applyParentProjectionDecisions_spec (decisions : List ProjectionDecision) :
    Triple (fun state => state.Ready) (applyParentProjectionDecisions drawn decisions)
      Keeps fun _ state => state.Opened := by
  refine Triple.through (fun _ (present : ChatState ι) => present.Ready) ?_ fun _ => ?_
  · exact Triple.failIf fun _ present holds => holds
  refine (prepareProjectionMaintenance_spec drawn).bind fun _ => ?_
  refine openedMeta_spec.bind fun projection => ?_
  refine Triple.through (fun applied (present : ChatState ι) => (present.Opened ∧
    present.projection = some (.ready projection)) ∧ projection.Succeeds applied) ?_
    fun applied => ?_
  · exact Triple.lift fun applied done present holds => ⟨holds, .apply done⟩
  · intro present holds
    exact (commit_spec holds.2 present.root).ending (fun _ _ holds => holds.1.1) present
      ⟨⟨holds.1.1, rfl⟩, holds.1.2⟩

end Locked

end ChatStore

/-- Between two changes of any operation everything kept stays kept. -/
theorem LockedOperation.run_spec [DecidableEq ι] (operation : LockedOperation) :
    Triple (fun state => state.Ready) (operation.run drawn) ChatStore.Keeps
      fun _ _ => True := by
  cases operation with
  | reconcile =>
      exact (ChatStore.reconcileLocked_spec drawn).bind fun _ =>
        Triple.pure _ fun _ _ => trivial
  | prepare =>
      exact (ChatStore.prepareProjectionMaintenance_spec drawn).ending fun _ _ _ => trivial
  | appendMany inputs =>
      exact (ChatStore.appendLocked_spec drawn inputs).ending fun _ _ _ => trivial
  | appendNode node superseded =>
      exact (ChatStore.appendNodeLocked_spec drawn node superseded).ending fun _ _ _ => trivial
  | applyDecisions decisions =>
      exact (ChatStore.applyParentProjectionDecisions_spec drawn decisions).ending
        fun _ _ _ => trivial

namespace ChatStore

section Locked

variable [DecidableEq ι]

end Locked
end ChatStore

/-- An operation starts in a process that has not opened the named projection, and finds records
that the root does not publish. -/
def StartsUnpublished (before : ChatSystem ι) (event : ChatEvent ι) : Prop :=
  (∃ operation drawn, event = .start operation drawn) ∧
    before.state.projectionWritable = false ∧ before.state.root.authority ≠ none ∧
      ¬before.state.Published

namespace ChatSystem

/-- The invariant of the runs whose operations start with everything published. -/
structure Sound (system : ChatSystem ι) : Prop where
  kept : system.state.Kept
  running : ∀ course, system.running = some course →
    course.Meets ChatStore.Keeps (fun _ _ => True) system.state

theorem sound_initial : (ChatSystem.initial : ChatSystem ι).Sound where
  kept := {
    rooted := ⟨List.Pairwise.nil, by simp [initial, ChatState.initial]⟩
    opened := by simp [initial, ChatState.initial] }
  running := by simp [initial]

/-- Dropping what the process knows keeps the roots. -/
theorem Sound.dropCaches {system : ChatSystem ι} (sound : system.Sound) :
    ({ state := system.state.dropCaches, running := none } : ChatSystem ι).Sound where
  kept := ⟨⟨sound.kept.rooted.permanent, sound.kept.rooted.present⟩, sound.kept.opened⟩
  running := by simp

theorem Sound.ready {system : ChatSystem ι} (sound : system.Sound) {event : ChatEvent ι}
    {operation : LockedOperation} {drawn : ι} (starts : event = .start operation drawn)
    (published : ¬StartsUnpublished system event) : system.state.Ready := by
  cases writable : system.state.projectionWritable with
  | true =>
      rcases sound.kept.opened writable with holds | all
      · exact .opened ⟨sound.kept.rooted, writable, holds⟩
      · exact .published sound.kept.rooted all
  | false =>
      by_cases none : system.state.root.authority = none
      · exact .unnamed ⟨sound.kept.rooted, writable, none⟩
      · refine .published sound.kept.rooted ?_
        by_contra unpublished
        exact published ⟨⟨operation, drawn, starts⟩, writable, none, unpublished⟩

theorem Sound.step [DecidableEq ι] {before after : ChatSystem ι} {event : ChatEvent ι}
    (sound : before.Sound) (taken : before.Step event after)
    (published : ¬StartsUnpublished before event) : after.Sound := by
  unfold Step next at taken
  split at taken
  case h_1 operation drawn =>
    split at taken
    case h_1 => cases taken
    case h_2 =>
      cases taken
      refine ⟨sound.kept, fun course found => ?_⟩
      cases found
      exact operation.run_spec drawn before.state (sound.ready rfl published)
  case h_2 =>
    split at taken
    case h_1 => cases taken
    case h_2 =>
      cases taken
      exact ⟨sound.kept, by simp⟩
    case h_3 =>
      cases taken
      exact sound.dropCaches
    case h_4 state rest running =>
      cases taken
      obtain ⟨kept, meets⟩ := sound.running _ running
      refine ⟨kept, fun course found => ?_⟩
      cases found
      exact meets
  case h_3 =>
    split at taken
    case h_1 => cases taken
    case h_2 =>
      cases taken
      exact sound.dropCaches
  case h_4 =>
    cases taken
    refine ⟨⟨⟨sound.kept.rooted.permanent, sound.kept.rooted.present⟩, ?_⟩, by simp⟩
    simp [ChatState.restarted]
  case h_5 =>
    cases taken
    exact sound
  case h_6 =>
    cases taken
    exact sound
  case h_7 projection =>
    split at taken
    case isTrue allowed =>
      cases taken
      refine ⟨⟨⟨sound.kept.rooted.permanent, sound.kept.rooted.present⟩, ?_⟩, ?_⟩
      · simp [allowed.2]
      · intro course found
        simp [Option.isNone_iff_eq_none.mp allowed.1] at found
    case isFalse => cases taken

end ChatSystem

/-- A message without a source. -/
def plainUnit (sourceKey : String) : AppendUnit where
  kind := .user
  date := "2026-01-01T00:00:00.000Z"
  text := sourceKey
  textBytes := sourceKey.utf8ByteSize
  sourceKey := sourceKey
  source := none
  images := none
  toolClipping := none

end PiAdaptative.ContinuousChat
