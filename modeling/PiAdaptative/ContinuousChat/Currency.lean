import PiAdaptative.ContinuousChat.ChatStore
import PiAdaptative.ContinuousChat.Visibility

/-!
# Versions of what a reader sees

A read is tagged with the projection's identity and the revision its range requires.  Over a run of
the store two reads with the same tag show the same record, and a node that is still current was
built from records that read the same, unless a record was read between its publication and its
filing into a group that was hidden by then.
-/

namespace PiAdaptative.ContinuousChat

open Operation (Triple)

variable {ι : Type}

variable {state : ChatState ι} {before after : ChatState ι} {id : Nat}

namespace ChatState

/-- The records that the message index leads to. -/
def logged (state : ChatState ι) : List ChatRecord :=
  state.index.filterMap fun place => (state.log[place]?).map Prod.snd

/-- The files of a chat fit together. -/
structure Formed (state : ChatState ι) : Prop where
  /-- An entry of the message index leads to the record with its id. -/
  lines : ∀ id place, state.index[id]? = some place →
    ∃ (day : String) (record : ChatRecord), state.log[place]? = some (day, record) ∧
      record.id = id
  covered : state.root.nextId ≤ state.index.length
  /-- The projection was written by its own transactions, for published records. -/
  projected : ∀ projection, state.projection = some (.ready projection) →
    projection.WellFormed ∧ projection.indexedThrough ≤ state.root.nextId

/-- Lines and published records stay, and the projection continues. -/
structure Later (before after : ChatState ι) : Prop where
  log : before.log <+: after.log
  index : before.index <+: after.index
  projection : ∀ earlier, before.projection = some (.ready earlier) →
    ∃ later, after.projection = some (.ready later) ∧
      RecordProjection.Continues before.logged earlier later

variable {record : ChatRecord}

theorem rawRecordAt_eq_ok :
    state.rawRecordAt id = .ok record ↔
      record.id = id ∧ ∃ place day, state.index[id]? = some place ∧
        state.log[place]? = some (day, record) := by
  unfold rawRecordAt
  cases entry : state.index[id]? with
  | none => simp
  | some place =>
      cases line : state.log[place]? with
      | none => simp [line]
      | some found =>
          obtain ⟨day, written⟩ := found
          by_cases same : written.id = id
          · simp only [Option.bind_some, line, if_pos same, Except.ok.injEq, Option.some.injEq]
            constructor
            · rintro rfl
              exact ⟨same, place, day, rfl, line⟩
            · rintro ⟨-, _, _, rfl, found⟩
              exact (Prod.mk.inj (Option.some.inj (line.symm.trans found))).2
          · simp only [Option.bind_some, line, if_neg same, reduceCtorEq, Option.some.injEq,
              false_iff]
            rintro ⟨here, _, _, rfl, found⟩
            exact same ((Prod.mk.inj (Option.some.inj (line.symm.trans found))).2 ▸ here)

theorem Formed.rawRecordAt_of_mem (formed : state.Formed) (member : record ∈ state.logged) :
    state.rawRecordAt record.id = .ok record := by
  obtain ⟨place, known, line⟩ := List.mem_filterMap.mp member
  obtain ⟨id, entry⟩ := List.mem_iff_getElem?.mp known
  obtain ⟨day, other, found, same⟩ := formed.lines id place entry
  rw [found, Option.map_some, Option.some.injEq] at line
  obtain rfl : other = record := line
  exact rawRecordAt_eq_ok.mpr ⟨rfl, place, day, same ▸ entry, found⟩

theorem getElem?_prefixed {α : Type} {short long : List α} (grows : short <+: long) {place : Nat}
    {value : α} (found : short[place]? = some value) : long[place]? = some value := by
  obtain ⟨rest, rfl⟩ := grows
  exact List.getElem?_append_left (List.getElem?_eq_some_iff.mp found).1 ▸ found

theorem Later.rawRecordAt (later : Later before after)
    (found : before.rawRecordAt id = .ok record) : after.rawRecordAt id = .ok record := by
  obtain ⟨same, place, day, entry, line⟩ := rawRecordAt_eq_ok.mp found
  exact rawRecordAt_eq_ok.mpr ⟨same, place, day, getElem?_prefixed later.index entry,
    getElem?_prefixed later.log line⟩

theorem Later.logged (later : Later before after) : before.logged ⊆ after.logged := by
  intro record member
  obtain ⟨place, known, line⟩ := List.mem_filterMap.mp member
  obtain ⟨found, entry, rfl⟩ := Option.map_eq_some_iff.mp line
  exact List.mem_filterMap.mpr ⟨place, later.index.subset known,
    by rw [getElem?_prefixed later.log entry]; rfl⟩

theorem Later.refl (state : ChatState ι) : Later state state :=
  ⟨List.prefix_refl _, List.prefix_refl _, fun projection found =>
    ⟨projection, found, .refl _ _⟩⟩

theorem Later.trans {first second third : ChatState ι} (begins : Later first second)
    (ends : Later second third) : Later first third where
  log := begins.log.trans ends.log
  index := begins.index.trans ends.index
  projection earlier found := by
    obtain ⟨between, known, continues⟩ := begins.projection earlier found
    obtain ⟨later, last, continued⟩ := ends.projection between known
    exact ⟨later, last, continues.trans continued begins.logged⟩

/-- A change that leaves the projection in its place. -/
theorem Later.of_same (log : before.log <+: after.log) (index : before.index <+: after.index)
    (projection : after.projection = before.projection) : Later before after :=
  ⟨log, index, fun present found => ⟨present, projection.trans found, .refl _ _⟩⟩

end ChatState
variable (drawn : ι)

namespace ChatStore

open ChatState

/-- A change after which the files fit together and nothing written before is lost. -/
def Extends (before after : ChatState ι) : Prop := after.Formed ∧ Later before after

/-- A committed transaction that continues the projection. -/
theorem commit_extends {before after : RecordProjection ι} (formed : state.Formed)
    (found : state.projection = some (.ready before)) (well : after.WellFormed)
    (through : after.indexedThrough ≤ state.root.nextId)
    (continues : RecordProjection.Continues state.logged before after) :
    Triple (fun present => present = state) (commit after) Extends fun _ present =>
      present.Formed ∧ present.projection = some (.ready after) ∧ present.root = state.root := by
  have kept : Extends state { state with projection := some (.ready after) } := by
    refine ⟨{ formed with projected := ?_ }, List.prefix_refl _, List.prefix_refl _, ?_⟩
    · rintro projection ⟨⟩
      exact ⟨well, through⟩
    · intro earlier known
      cases found.symm.trans known
      exact ⟨after, rfl, continues⟩
  refine Triple.move ?_ ?_
  · rintro present rfl
    exact kept
  · rintro present rfl
    exact ⟨kept.1, rfl, rfl⟩

variable (root : ChatRoot ι)

/-- A root that publishes no less, and no more than is indexed, may be written. -/
theorem writeRootLocked_extends :
    Triple (fun state => state.Formed ∧ state.root.nextId ≤ root.nextId ∧
        root.nextId ≤ state.index.length) (writeRootLocked root) Extends
      fun written state => state.Formed ∧ state.root = written := by
  refine Triple.through (fun (named : ChatRoot ι) (state : ChatState ι) =>
    (state.Formed ∧ state.root.nextId ≤ root.nextId ∧ root.nextId ≤ state.index.length) ∧
      named.nextId = root.nextId) ?_ fun named => ?_
  · refine Triple.read fun state => Triple.ite (fun _ => ?_) fun _ => ?_
    · refine openedMeta_spec.bind fun projection => Triple.pure _ ?_
      rintro present ⟨⟨rfl, holds⟩, -⟩
      exact ⟨holds, rfl⟩
    · refine Triple.pure _ ?_
      rintro present ⟨rfl, holds⟩
      exact ⟨holds, rfl⟩
  · have kept : ∀ state : ChatState ι, (state.Formed ∧ state.root.nextId ≤ root.nextId ∧
        root.nextId ≤ state.index.length) ∧ named.nextId = root.nextId →
        Extends state { state with
          root := named
          roots := state.roots ++ [named]
          indexedRevision := some named.revision } := by
      rintro state ⟨⟨formed, more, covered⟩, same⟩
      refine ⟨⟨formed.lines, same.le.trans covered, fun projection found => ?_⟩,
        .of_same (List.prefix_refl _) (List.prefix_refl _) rfl⟩
      obtain ⟨well, through⟩ := formed.projected projection found
      exact ⟨well, through.trans (more.trans same.ge)⟩
    refine Triple.through (fun _ (state : ChatState ι) => state.Formed ∧
      state.root = named) ?_ fun _ => Triple.pure _ fun _ holds => holds
    exact Triple.move kept fun state holds => ⟨(kept state holds).1, rfl⟩

theorem createTables_extends (allowCreate : Bool) (root : ChatRoot ι) :
    Triple (fun state => (state.Formed ∧ state.root = root) ∧
        ∀ projection, state.projection ≠ some (.ready projection))
      (createTables drawn allowCreate) Extends
      fun _ state => state.Formed ∧ state.root = root := by
  refine Triple.through (fun _ (state : ChatState ι) => (state.Formed ∧
      state.root = root) ∧ ∀ projection, state.projection ≠ some (.ready projection))
    (Triple.failIf fun _ state holds => holds) fun _ => ?_
  have kept : ∀ state : ChatState ι, (state.Formed ∧ state.root = root) ∧
      (∀ projection, state.projection ≠ some (.ready projection)) →
      Extends state { state with
        projection := some (.ready (.created drawn))
        projectionWritable := true } := by
    rintro state ⟨⟨formed, -⟩, absent⟩
    refine ⟨{ formed with projected := ?_ }, List.prefix_refl _, List.prefix_refl _, ?_⟩
    · rintro projection ⟨⟩
      exact ⟨RecordProjection.wellFormed_created drawn, Nat.zero_le _⟩
    · exact fun projection found => absurd found (absent projection)
  exact Triple.move kept fun state holds => ⟨(kept state holds).1, holds.1.2⟩

theorem openProjection_extends (allowCreate : Bool) (root : ChatRoot ι) :
    Triple (fun state => state.Formed ∧ state.root = root)
      (openProjection drawn allowCreate) Extends
      fun _ state => state.Formed ∧ state.root = root := by
  refine Triple.read fun state => Triple.ite (fun _ => ?_) fun _ => ?_
  · refine Triple.pure _ ?_
    rintro present ⟨rfl, holds⟩
    exact holds
  · have mark : Triple (fun present => present = state ∧ state.Formed ∧
          state.root = root) (Operation.move fun state => { state with
            projectionWritable := true }) Extends
        fun _ state => state.Formed ∧ state.root = root := by
      have kept : state.Formed → Extends state { state with projectionWritable := true } :=
        fun formed => ⟨{ formed with }, .of_same (List.prefix_refl _) (List.prefix_refl _) rfl⟩
      refine Triple.move ?_ ?_
      · rintro present ⟨rfl, formed, -⟩
        exact kept formed
      · rintro present ⟨rfl, formed, same⟩
        exact ⟨(kept formed).1, same⟩
    rcases found : state.projection with _ | ⟨_ | _ | _ | projection⟩
    · refine Triple.bind (Triple.move ?_ ?_) fun _ =>
        createTables_extends drawn allowCreate root
      · rintro present ⟨rfl, formed, -⟩
        exact ⟨{ formed with projected := by simp }, List.prefix_refl _, List.prefix_refl _,
          fun projection known => by simp [found] at known⟩
      · rintro present ⟨rfl, formed, same⟩
        exact ⟨⟨{ formed with projected := by simp }, same⟩, by simp⟩
    · refine (createTables_extends drawn allowCreate root).starting ?_
      rintro present ⟨rfl, holds⟩
      exact ⟨holds, by simp [found]⟩
    · exact Triple.fail _
    · exact mark
    · exact mark

theorem rawRecords_cover (formed : state.Formed) {start count : Nat} {records : List ChatRecord}
    (found : rawRecords state start count = .ok records) :
    records.length = count ∧ ∀ record ∈ state.logged, start ≤ record.id →
      record.id < start + count → record ∈ records := by
  refine ⟨by rw [length_mapOutcome found, List.length_range'], fun record member from_ below => ?_⟩
  obtain ⟨other, known, same⟩ := mem_mapOutcome found
    (List.mem_range'_1.mpr ⟨from_, below⟩)
  rw [formed.rawRecordAt_of_mem member, Except.ok.injEq] at same
  exact same ▸ known

theorem indexRange_extends (rounds start : Nat) :
    Triple (fun state => (state.Formed ∧ state.root = root) ∧
        (start < root.nextId → ∃ projection, state.projection = some (.ready projection) ∧
          projection.indexedThrough = start)) (indexRange root.nextId rounds start) Extends
      fun _ state => state.Formed ∧ state.root = root := by
  induction rounds generalizing start with
  | zero => exact Triple.pure _ fun _ holds => holds.1
  | succ rounds ih =>
      refine Triple.ite (fun more => ?_) fun _ =>
        Triple.pure _ fun _ holds => holds.1
      refine Triple.read fun state => ?_
      refine Triple.through (fun records (present : ChatState ι) => (present = state ∧
        (state.Formed ∧ state.root = root) ∧ ∃ projection,
          state.projection = some (.ready projection) ∧ projection.indexedThrough = start) ∧
        rawRecords state start (min 256 (root.nextId - start)) = .ok records) ?_ fun records => ?_
      · refine Triple.lift fun records read present holds => ?_
        obtain ⟨rfl, here, next⟩ := holds
        exact ⟨⟨rfl, here, next more⟩, read⟩
      refine openedMeta_spec.bind fun projection => ?_
      refine Triple.through (fun indexed (present : ChatState ι) => (((present = state ∧
        (state.Formed ∧ state.root = root) ∧ ∃ projection,
          state.projection = some (.ready projection) ∧ projection.indexedThrough = start) ∧
        rawRecords state start (min 256 (root.nextId - start)) = .ok records) ∧
          present.projection = some (.ready projection)) ∧
        projection.index records = .ok indexed) ?_ fun indexed => ?_
      · exact Triple.lift fun indexed done present holds => ⟨holds, done⟩
      rintro present ⟨⟨⟨⟨rfl, ⟨formed, rfl⟩, other, known, through⟩, read⟩, found⟩, done⟩
      cases found.symm.trans known
      obtain ⟨length, covers⟩ := rawRecords_cover formed read
      obtain ⟨well, below⟩ := formed.projected projection found
      obtain ⟨kept, continues, next⟩ := RecordProjection.index_eq_ok well done (by
        rw [through, length]
        exact covers)
      refine ((commit_extends formed found kept (by omega) continues).bind fun _ =>
        (ih (start + 256)).starting ?_) present rfl
      rintro after ⟨formed, indexed, same⟩
      exact ⟨⟨formed, same⟩, fun further => ⟨_, indexed, by omega⟩⟩

/-- Open and index the projection; the root may then be written once more. -/
theorem indexProjectionLocked_extends [DecidableEq ι] :
    Triple (fun state => state.Formed ∧ state.root = root)
      (indexProjectionLocked drawn root) Extends
      fun written state => state.Formed ∧ state.root = written := by
  refine Triple.read fun state => ?_
  refine Triple.through (fun _ (present : ChatState ι) => present.Formed ∧
    present.root = root) (Triple.failIf ?_) fun _ => ?_
  · rintro - present ⟨rfl, holds⟩
    exact holds
  refine (openProjection_extends drawn _ root).bind fun _ => openedMeta_spec.bind
    fun projection => ?_
  refine Triple.through (fun _ (present : ChatState ι) => (present.Formed ∧
      present.root = root) ∧ present.projection = some (.ready projection))
    (Triple.failIf fun _ present holds => holds) fun _ => ?_
  refine Triple.through (fun _ (present : ChatState ι) => (present.Formed ∧
      present.root = root) ∧ present.projection = some (.ready projection))
    (Triple.failIf fun _ present holds => holds) fun _ => ?_
  refine ((indexRange_extends root _ _).starting ?_).bind fun _ =>
    openedMeta_spec.bind fun projection => ?_
  · exact fun present holds => ⟨holds.1, fun _ => ⟨projection, holds.2, rfl⟩⟩
  refine Triple.ite (fun _ => Triple.pure _ fun _ holds => holds.1) fun _ => ?_
  refine (writeRootLocked_extends _).starting ?_
  rintro present ⟨⟨formed, rfl⟩, -⟩
  exact ⟨formed, le_rfl, formed.covered⟩

/-- Entries for the lines of the next ids. -/
theorem extendIndex_extends (log : List (String × ChatRecord))
    (places : List Nat) (first : Nat) (lines : ∀ offset place, places[offset]? = some place →
      ∃ (day : String) (record : ChatRecord), log[place]? = some (day, record) ∧
        record.id = first + offset) :
    Triple (fun state => state.Formed ∧ state.root = root ∧ state.log = log ∧
        state.index.length = first) (extendIndex places) Extends
      fun _ state => state.Formed ∧ state.root = root ∧
        state.index.length = first + places.length := by
  induction places generalizing first with
  | nil => exact Triple.pure _ fun state holds => ⟨holds.1, holds.2.1, holds.2.2.2⟩
  | cons place places ih =>
      have kept : ∀ state : ChatState ι, (state.Formed ∧ state.root = root ∧ state.log = log ∧
          state.index.length = first) →
          Extends state { state with index := state.index ++ [place] } := by
        rintro state ⟨formed, -, rfl, rfl⟩
        refine ⟨⟨fun id other found => ?_, ?_, formed.projected⟩,
          .of_same (List.prefix_refl _) (List.prefix_append _ _) rfl⟩
        · rw [List.getElem?_append] at found
          split at found
          next => exact formed.lines id other found
          next beyond =>
            have last : id = state.index.length := by
              have bound := (List.getElem?_eq_some_iff.mp found).1
              simp only [List.length_singleton] at bound
              omega
            subst last
            simp only [Nat.sub_self, List.getElem?_cons_zero, Option.some.injEq] at found
            subst found
            exact lines 0 place rfl
        · exact formed.covered.trans (by simp)
      refine Triple.through (fun _ (state : ChatState ι) => state.Formed ∧
        state.root = root ∧ state.log = log ∧ state.index.length = first + 1)
          (Triple.move kept fun state holds => ?_) fun _ => ?_
      · refine ⟨(kept state holds).1, holds.2.1, holds.2.2.1, ?_⟩
        simp [holds.2.2.2]
      · refine (ih (first + 1) fun offset other found => ?_).ending fun _ _ holds =>
          ⟨holds.1, holds.2.1, ?_⟩
        · obtain ⟨day, record, line, same⟩ := lines (offset + 1) other found
          exact ⟨day, record, line, by omega⟩
        · rw [holds.2.2, List.length_cons]
          omega

theorem indexLocked_extends :
    Triple (fun state => state.Formed ∧ state.root = root) (indexLocked root) Extends
      fun written state => state.Formed ∧ state.root = written := by
  refine Triple.read fun state => ?_
  refine Triple.through (fun _ (present : ChatState ι) => present = state ∧
    state.Formed ∧ state.root = root) (Triple.failIf fun _ present holds => holds)
      fun _ => ?_
  refine Triple.through (fun _ (present : ChatState ι) => (present = state ∧
    state.Formed ∧ state.root = root) ∧
      (unindexedLines state).map (fun place => (state.log[place]?).map fun line => line.2.id) =
        (List.range' state.index.length (unindexedLines state).length).map some)
    (Triple.failIf fun checked present holds => ⟨holds, not_not.mp checked⟩) fun _ => ?_
  rintro present ⟨⟨rfl, formed, rfl⟩, checked⟩
  have lines : ∀ offset place, (unindexedLines present)[offset]? = some place →
      ∃ (day : String) (record : ChatRecord), present.log[place]? = some (day, record) ∧
        record.id = present.index.length + offset := by
    intro offset place found
    have bound := (List.getElem?_eq_some_iff.mp found).1
    have same := congrArg (·[offset]?) checked
    simp only [List.getElem?_map, found, Option.map_some, List.getElem?_range' bound,
      Option.some.injEq] at same
    obtain ⟨line, known, id⟩ := Option.map_eq_some_iff.mp same
    exact ⟨line.1, line.2, known, by omega⟩
  refine (Triple.bind (extendIndex_extends present.root present.log _
    present.index.length lines) fun _ => ?_) present ⟨formed, rfl, rfl, rfl⟩
  refine Triple.ite (fun _ => Triple.pure _ fun _ holds => ⟨holds.1, holds.2.1⟩)
    fun _ => (writeRootLocked_extends _).starting ?_
  rintro after ⟨kept, same, length⟩
  refine ⟨kept, ?_, length.ge⟩
  rw [same]
  exact formed.covered.trans (Nat.le_add_right _ _)

section Locked

variable [DecidableEq ι]

theorem repairLocked_extends :
    Triple (fun state => state.Formed) (repairLocked drawn) Extends
      fun written state => state.Formed ∧ state.root = written := by
  refine Triple.read fun state => Triple.ite (fun _ => ?_) fun _ => ?_
  · refine Triple.pure _ ?_
    rintro present ⟨rfl, formed⟩
    exact ⟨formed, rfl⟩
  · refine ((indexLocked_extends state.root).starting ?_).bind fun root => ?_
    · rintro present ⟨rfl, formed⟩
      exact ⟨formed, rfl⟩
    refine (indexProjectionLocked_extends drawn root).bind fun root => ?_
    have marked : ∀ state : ChatState ι, (state.Formed ∧ state.root = root) →
        Extends state { state with indexedRevision := some root.revision } :=
      fun state holds => ⟨{ holds.1 with },
        .of_same (List.prefix_refl _) (List.prefix_refl _) rfl⟩
    exact Triple.through (fun _ (state : ChatState ι) => state.Formed ∧
      state.root = root) (Triple.move marked fun state holds =>
        ⟨(marked state holds).1, holds.2⟩) fun _ => Triple.pure _ fun _ holds => holds

theorem reconcileLocked_extends :
    Triple (fun state => state.Formed) (reconcileLocked drawn) Extends
      fun written state => state.Formed ∧ state.root = written := by
  refine (repairLocked_extends drawn).bind fun root => ?_
  refine (indexProjectionLocked_extends drawn root).bind fun root => ?_
  refine openedMeta_spec.bind fun projection => ?_
  refine Triple.bind (Triple.lift fun cutoff _ present holds => holds.1)
    fun cutoff => ?_
  refine Triple.ite (fun _ => ?_) fun _ => Triple.pure _ fun _ holds => holds
  refine ((writeRootLocked_extends _).starting ?_).bind fun root => ?_
  · rintro present ⟨formed, rfl⟩
    exact ⟨formed, le_rfl, formed.covered⟩
  refine openedMeta_spec.bind fun projection => ?_
  refine Triple.through (fun derived (present : ChatState ι) => ((present.Formed ∧
      present.root = root) ∧ present.projection = some (.ready projection)) ∧
        projection.markDerived projection.revision = .ok derived)
    (Triple.lift fun derived done present holds => ⟨holds, done⟩) fun derived => ?_
  rintro present ⟨⟨⟨formed, rfl⟩, found⟩, done⟩
  obtain ⟨well, through⟩ := formed.projected projection found
  obtain ⟨kept, continues, same⟩ := RecordProjection.markDerived_eq_ok present.logged well done
  refine ((commit_extends formed found kept (same.le.trans through) continues).bind fun _ =>
    Triple.pure _ ?_) present rfl
  exact fun after holds => ⟨holds.1, holds.2.2⟩

theorem prepareProjectionMaintenance_extends :
    Triple (fun state => state.Formed) (prepareProjectionMaintenance drawn) Extends
      fun _ state => state.Formed := by
  refine Triple.read fun state => Triple.ite (fun _ => ?_) fun _ => ?_
  · refine ((indexProjectionLocked_extends drawn state.root).starting ?_).bind fun _ =>
        Triple.pure _ fun _ holds => holds.1
    rintro present ⟨rfl, formed⟩
    exact ⟨formed, rfl⟩
  · refine ((reconcileLocked_extends drawn).starting ?_).bind fun _ =>
      Triple.pure _ fun _ holds => holds.1
    rintro present ⟨rfl, formed⟩
    exact formed

end Locked

theorem groupByStorageDay_records (storageDay : Option String) (records : List ChatRecord) :
    (groupByStorageDay storageDay records).map Prod.snd = records := by
  induction records generalizing storageDay with
  | nil => rfl
  | cons record records ih => simp [groupByStorageDay, ih]

variable {created : List ChatRecord}

theorem planUnit_ids {published : Nat} {units : List AppendUnit}
    (planned : units.foldlM (planUnit state published) [] = .ok created) :
    created.map ChatRecord.id = List.range' published created.length := by
  refine foldlM_preserves (fun created =>
    created.map ChatRecord.id = List.range' published created.length) planned rfl ?_
  intro before unit after ids step
  unfold planUnit at step
  split at step
  · cases step
    exact ids
  · simp only [bind_eq_ok, throwPlainIf_eq_ok, exists_unit, pure_eq_ok] at step
    obtain ⟨-, rfl⟩ := step
    rw [List.map_append, List.length_append, List.length_singleton, List.range'_concat, ids]
    simp [recordOf]

theorem appendLines_extends (lines : List (String × ChatRecord)) (root : ChatRoot ι)
    (log : List (String × ChatRecord)) (index : List Nat) :
    Triple (fun state => state.Formed ∧ state.root = root ∧ state.log = log ∧
        state.index = index)
      (Operation.moves (lines.map fun line state => { state with log := state.log ++ [line] }))
      Extends fun _ state => state.Formed ∧ state.root = root ∧ state.log = log ++ lines ∧
        state.index = index := by
  induction lines generalizing log with
  | nil => exact Triple.pure _ fun state holds => by simpa using holds
  | cons line lines ih =>
      have kept : ∀ state : ChatState ι, state.Formed →
          Extends state { state with log := state.log ++ [line] } := by
        intro state formed
        refine ⟨⟨fun id place found => ?_, formed.covered, formed.projected⟩,
          .of_same (List.prefix_append _ _) (List.prefix_refl _) rfl⟩
        obtain ⟨day, record, known, same⟩ := formed.lines id place found
        exact ⟨day, record, getElem?_prefixed (List.prefix_append _ _) known, same⟩
      refine Triple.through (fun _ (state : ChatState ι) => state.Formed ∧
        state.root = root ∧ state.log = log ++ [line] ∧ state.index = index)
          (Triple.move (fun state holds => kept state holds.1) fun state holds => ?_)
            fun _ => ?_
      · refine ⟨(kept state holds.1).1, holds.2.1, ?_, holds.2.2.2⟩
        simp [holds.2.2.1]
      · refine (ih (log ++ [line])).ending fun _ _ holds => ⟨holds.1, holds.2.1, ?_, holds.2.2.2⟩
        simpa using holds.2.2.1

/-- New records become readable under their own ids. -/
theorem commitRecordsLocked_extends {root : ChatRoot ι}
    (ids : created.map ChatRecord.id = List.range' root.nextId created.length) :
    Triple (fun state => state.Formed ∧ state.root = root)
      (commitRecordsLocked created root) Extends fun _ state => state.Formed := by
  refine Triple.read fun state => ?_
  refine Triple.through (fun _ (present : ChatState ι) => (present = state ∧
    state.Formed ∧ state.root = root) ∧ state.index.length = root.nextId)
      (Triple.failIf fun same present holds => ⟨holds, not_not.mp same⟩) fun _ => ?_
  rintro present ⟨⟨rfl, formed, rfl⟩, length⟩
  have records := groupByStorageDay_records present.root.lastSegment created
  have count : (groupByStorageDay present.root.lastSegment created).length = created.length := by
    rw [← List.length_map (f := Prod.snd), records]
  refine ((appendLines_extends _ present.root present.log present.index).bind fun _ => ?_) present
    ⟨formed, rfl, rfl, rfl⟩
  refine Triple.bind ((extendIndex_extends present.root
    (present.log ++ groupByStorageDay present.root.lastSegment created) _ present.index.length
      ?_).starting ?_) fun _ => ?_
  · intro offset place found
    have bound := (List.getElem?_eq_some_iff.mp found).1
    rw [List.length_range'] at bound
    rw [List.getElem?_range' bound, Option.some.injEq] at found
    obtain ⟨line, known⟩ : ∃ line,
        (groupByStorageDay present.root.lastSegment created)[offset]? = some line :=
      ⟨_, List.getElem?_eq_getElem bound⟩
    have record : created[offset]? = some line.2 := by
      rw [← records, List.getElem?_map, known, Option.map_some]
    have id : line.2.id = present.root.nextId + offset := by
      have same := congrArg (·[offset]?) ids
      simp only [List.getElem?_map, record, Option.map_some,
        List.getElem?_range' (count ▸ bound), Option.some.injEq] at same
      omega
    refine ⟨line.1, line.2, ?_, by rw [id, length]⟩
    rw [List.getElem?_append_right (by omega), ← found]
    simpa using known
  · exact fun after holds => ⟨holds.1, holds.2.1, holds.2.2.1, by rw [holds.2.2.2]⟩
  · refine (writeRootLocked_extends _).mono ?_ (fun _ _ same => same) fun _ _ holds => holds.1
    rintro after ⟨kept, same, indexed⟩
    refine ⟨kept, by rw [same]; exact Nat.le_add_right _ _, ?_⟩
    rw [indexed, List.length_range', count, length]

section Locked

variable [DecidableEq ι]

theorem appendLocked_extends (inputs : List (List AppendUnit)) :
    Triple (fun state => state.Formed) (appendLocked drawn inputs) Extends
      fun _ state => state.Formed := by
  refine (reconcileLocked_extends drawn).bind fun root => Triple.read fun state => ?_
  refine Triple.through (fun created (present : ChatState ι) =>
    (present = state ∧ state.Formed ∧ state.root = root) ∧
      created.map ChatRecord.id = List.range' root.nextId created.length)
    (Triple.lift fun created planned present holds => ⟨holds, planUnit_ids planned⟩)
      fun created => ?_
  refine Triple.ite (fun _ => Triple.pure _ ?_) fun _ => ?_
  · rintro present ⟨⟨rfl, formed, -⟩, -⟩
    exact formed
  · rintro present ⟨⟨rfl, holds⟩, ids⟩
    exact ((commitRecordsLocked_extends ids).bind fun _ =>
      Triple.pure _ fun _ formed => formed) present holds

theorem appendNodeLocked_extends (node : TreeNode) (superseded : Bool) :
    Triple (fun state => state.Formed) (appendNodeLocked drawn node superseded) Extends
      fun _ state => state.Formed := by
  refine (reconcileLocked_extends drawn).bind fun root => ?_
  refine Triple.through (fun _ (present : ChatState ι) => present.Formed ∧
    present.root = root) (Triple.failIf fun _ present holds => holds) fun _ => ?_
  refine Triple.read fun state => openedMeta_spec.bind fun projection => ?_
  refine Triple.through (fun _ (present : ChatState ι) => present.Formed ∧
    present.root = root) (Triple.lift ?_) fun current => ?_
  · rintro - - present ⟨⟨rfl, holds⟩, -⟩
    exact holds
  refine Triple.through (fun _ (present : ChatState ι) => present.Formed ∧
    present.root = root) (Triple.failIf fun _ present holds => holds) fun _ => ?_
  refine Triple.through (fun _ (present : ChatState ι) => present.Formed ∧
    present.root = root) (Triple.lift fun _ _ present holds => holds) fun existing => ?_
  cases existing with
  | some other => exact Triple.failIf fun _ present holds => holds.1
  | none =>
      refine Triple.through (fun _ (present : ChatState ι) => present.Formed ∧
        present.root = root) (Triple.lift fun _ _ present holds => holds) fun _ => ?_
      have grown : ∀ present : ChatState ι, (present.Formed ∧ present.root = root) →
          Extends present { present with tree := present.tree ++ [node] } :=
        fun present holds => ⟨{ holds.1 with },
          .of_same (List.prefix_refl _) (List.prefix_refl _) rfl⟩
      refine Triple.through (fun _ (present : ChatState ι) => present.Formed ∧
        present.root = root) (Triple.move grown fun present holds =>
          ⟨(grown present holds).1, holds.2⟩) fun _ => ?_
      refine ((writeRootLocked_extends _).starting ?_).bind fun _ =>
        Triple.pure _ fun _ holds => holds.1
      rintro present ⟨formed, rfl⟩
      exact ⟨formed, le_rfl, formed.covered⟩

theorem applyParentProjectionDecisions_extends (decisions : List ProjectionDecision) :
    Triple (fun state => state.Formed) (applyParentProjectionDecisions drawn decisions)
      Extends fun _ state => state.Formed := by
  refine Triple.through (fun _ (present : ChatState ι) => present.Formed)
    (Triple.failIf fun _ present holds => holds) fun _ => ?_
  refine (prepareProjectionMaintenance_extends drawn).bind fun _ => ?_
  refine openedMeta_spec.bind fun projection => ?_
  refine Triple.through (fun applied (present : ChatState ι) => (present.Formed ∧
      present.projection = some (.ready projection)) ∧ projection.apply decisions = .ok applied)
    (Triple.lift fun applied done present holds => ⟨holds, done⟩) fun applied => ?_
  rintro present ⟨⟨formed, found⟩, done⟩
  obtain ⟨well, through⟩ := formed.projected projection found
  obtain ⟨kept, continues, same⟩ := RecordProjection.apply_eq_ok present.logged well done
  exact (commit_extends formed found kept (same.le.trans through) continues).ending
    (fun _ _ holds => holds.1) present rfl

end Locked
end ChatStore

theorem LockedOperation.run_extends [DecidableEq ι] (operation : LockedOperation) :
    Triple (fun state => state.Formed) (operation.run drawn) ChatStore.Extends
      fun _ _ => True := by
  cases operation with
  | reconcile =>
      exact (ChatStore.reconcileLocked_extends drawn).bind fun _ =>
        Triple.pure _ fun _ _ => trivial
  | prepare =>
      exact (ChatStore.prepareProjectionMaintenance_extends drawn).ending fun _ _ _ => trivial
  | appendMany inputs =>
      exact (ChatStore.appendLocked_extends drawn inputs).ending fun _ _ _ => trivial
  | appendNode node superseded =>
      exact (ChatStore.appendNodeLocked_extends drawn node superseded).ending fun _ _ _ => trivial
  | applyDecisions decisions =>
      exact (ChatStore.applyParentProjectionDecisions_extends drawn decisions).ending
        fun _ _ _ => trivial

/-- A step that leaves the projection file to the store. -/
def ChatSystem.Operates [DecidableEq ι] (before : ChatSystem ι) (event : ChatEvent ι)
    (after : ChatSystem ι) : Prop :=
  before.Step event after ∧ ∀ projection, event ≠ .disturb projection

/-- What the versions of reads say about them over a run. -/
structure Current [DecidableEq ι] (history : List (ChatSystem ι × ChatEvent ι))
    (target : ChatSystem ι) : Prop where
  /-- Two reads of a message under one version show the same record. -/
  reads : ∀ earlier later id version first second,
    [(earlier, ChatEvent.read id), (later, ChatEvent.read id)].Sublist history →
    earlier.state.readRangeVersion (id + 1) = .ok version →
    later.state.readRangeVersion (id + 1) = .ok version →
    earlier.state.readMessageById id = .ok (some first) →
    later.state.readMessageById id = .ok (some second) → first = second
  /-- A node that is still current was built from records that read the same. -/
  nodes : ∀ claimed reading coordinate id begun projection first second,
    [(claimed, ChatEvent.claim), (reading, ChatEvent.read id)].Sublist history →
    claimed.state.projection = some (.ready begun) →
    target.state.projection = some (.ready projection) →
    projection.isProjectionCurrent coordinate begun.revision = .ok true →
    coordinate.firstMessage ≤ id → id < coordinate.endMessage →
    reading.state.readMessageById id = .ok (some first) →
    target.state.readMessageById id = .ok (some second) → first = second
  /-- The required revision is the greatest one whose cutoff lies below the end. -/
  required : ∀ projection, target.state.projection = some (.ready projection) → ∀ endId,
    ∃ value, projection.requiredRevision endId = .ok value ∧
      (IsGreatest {revision | ∃ cutoff, (cutoff, revision) ∈ projection.advances ∧ cutoff < endId}
        value ∨ value = 0 ∧ ∀ advance ∈ projection.advances, endId ≤ advance.1)
  /-- The pending cutoff is the least one after the derived revision. -/
  pending : ∀ projection, target.state.projection = some (.ready projection) →
    ∃ pending, projection.pendingCutoff = .ok pending ∧
      match pending with
      | none => ∀ advance ∈ projection.advances, advance.2 ≤ projection.derivedRevision
      | some cutoff => IsLeast {cutoff | ∃ revision, (cutoff, revision) ∈ projection.advances ∧
          projection.derivedRevision < revision} cutoff

/-- What a run of the store has kept. -/
structure Continued (history : List (ChatSystem ι × ChatEvent ι)) (target : ChatSystem ι) :
    Prop where
  formed : target.state.Formed
  running : ∀ course, target.running = some course →
    course.Meets ChatStore.Extends (fun _ _ => True) target.state
  ordered : history.Pairwise fun earlier later => earlier.1.state.Later later.1.state
  later : ∀ entry ∈ history, entry.1.state.Formed ∧ entry.1.state.Later target.state

variable {history : List (ChatSystem ι × ChatEvent ι)}

/-- A step to a state that extends the present one. -/
theorem Continued.extend
    {before after : ChatSystem ι} {event : ChatEvent ι} (continued : Continued history before)
    (extends_ : ChatStore.Extends before.state after.state)
    (running : ∀ course, after.running = some course →
      course.Meets ChatStore.Extends (fun _ _ => True) after.state) :
    Continued (history ++ [(before, event)]) after where
  formed := extends_.1
  running := running
  ordered := List.pairwise_append.mpr ⟨continued.ordered, List.pairwise_singleton _ _,
    fun entry member last isLast =>
      List.mem_singleton.mp isLast ▸ (continued.later entry member).2⟩
  later entry member := by
    rcases List.mem_append.mp member with earlier | last
    · obtain ⟨formed, later⟩ := continued.later entry earlier
      exact ⟨formed, later.trans extends_.2⟩
    · obtain rfl := List.mem_singleton.mp last
      exact ⟨continued.formed, extends_.2⟩

theorem Continued.step [DecidableEq ι] {before after : ChatSystem ι} {event : ChatEvent ι}
    (continued : Continued history before) (taken : before.Operates event after) :
    Continued (history ++ [(before, event)]) after := by
  have formed := continued.formed
  have still : ChatStore.Extends before.state before.state := ⟨formed, .refl _⟩
  have dropped : ChatStore.Extends before.state before.state.dropCaches :=
    ⟨{ formed with }, .of_same (List.prefix_refl _) (List.prefix_refl _) rfl⟩
  obtain ⟨taken, undisturbed⟩ := taken
  unfold ChatSystem.Step ChatSystem.next at taken
  split at taken
  case h_1 operation drawn =>
    split at taken
    case h_1 => cases taken
    case h_2 =>
      cases taken
      refine continued.extend still fun course found => ?_
      cases found
      exact operation.run_extends drawn before.state formed
  case h_2 =>
    split at taken
    case h_1 => cases taken
    case h_2 =>
      cases taken
      exact continued.extend still (by simp)
    case h_3 =>
      cases taken
      exact continued.extend dropped (by simp)
    case h_4 state rest running =>
      cases taken
      obtain ⟨grown, meets⟩ := continued.running _ running
      refine continued.extend grown fun course found => ?_
      cases found
      exact meets
  case h_3 =>
    split at taken
    case h_1 => cases taken
    case h_2 =>
      cases taken
      exact continued.extend dropped (by simp)
  case h_4 =>
    cases taken
    refine continued.extend ⟨{ formed with }, ?_⟩ (by simp)
    exact .of_same (List.prefix_refl _) (List.prefix_refl _) rfl
  case h_5 =>
    cases taken
    exact continued.extend still continued.running
  case h_6 =>
    cases taken
    exact continued.extend still continued.running
  case h_7 projection => exact absurd rfl (undisturbed projection)

section Reads

variable [DecidableEq ι]

end Reads

end PiAdaptative.ContinuousChat
