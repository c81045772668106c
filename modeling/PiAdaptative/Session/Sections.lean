import PiAdaptative.Session.Context

/-!
# Sections of a rebuilt context

A path splits at its latest checkpoint, a checkpoint splits what precedes it at its scope, and the
sections depend on the pending inputs among the entries of the path only.
-/

namespace PiAdaptative.Session

variable {env : Platform} {entry : SessionEntry} {path earlier later : List SessionEntry}
variable {checkpoint : Checkpoint} {pending other : List String}

theorem unheld_of_latestCheckpoint (absent : latestCheckpoint path = none) :
    ∀ entry ∈ path, compactionOf entry = none := by
  induction path with
  | nil => exact fun _ member => nomatch member
  | cons first path ih =>
      unfold latestCheckpoint at absent
      split at absent
      · cases absent
      next none =>
        rw [Option.map_eq_none_iff] at absent
        intro entry member
        rcases List.mem_cons.mp member with rfl | inside
        · exact absent
        · exact ih none entry inside

theorem latestCheckpoint_eq_some (found : latestCheckpoint path = some checkpoint) :
    path = checkpoint.before ++ checkpoint.entry :: checkpoint.after ∧
      compactionOf checkpoint.entry = some checkpoint.compaction ∧
      ∀ entry ∈ checkpoint.after, compactionOf entry = none := by
  induction path generalizing checkpoint with
  | nil => cases found
  | cons entry path ih =>
      unfold latestCheckpoint at found
      split at found
      next last rest =>
        obtain rfl := Option.some.inj found
        obtain ⟨split, holds, later⟩ := ih rest
        exact ⟨by simp [← split], holds, later⟩
      next none =>
        obtain ⟨compaction, holds, rfl⟩ := Option.map_eq_some_iff.mp found
        refine ⟨rfl, holds, ?_⟩
        exact unheld_of_latestCheckpoint none
theorem latestCheckpoint_eq_none :
    latestCheckpoint path = none ↔ ∀ entry ∈ path, compactionOf entry = none := by
  refine ⟨unheld_of_latestCheckpoint, fun absent => ?_⟩
  cases found : latestCheckpoint path with
  | none => rfl
  | some checkpoint =>
      obtain ⟨split, holds, -⟩ := latestCheckpoint_eq_some found
      rw [absent checkpoint.entry (by simp [split])] at holds
      cases holds

/-- Entries after the latest checkpoint do not change it. -/
theorem latestCheckpoint_append (plain : ∀ entry ∈ later, compactionOf entry = none) :
    latestCheckpoint (path ++ later) =
      (latestCheckpoint path).map fun checkpoint =>
        { checkpoint with after := checkpoint.after ++ later } := by
  induction path with
  | nil => simpa [latestCheckpoint] using latestCheckpoint_eq_none.mpr plain
  | cons entry path ih =>
      rw [List.cons_append]
      unfold latestCheckpoint
      rw [ih]
      cases latestCheckpoint path with
      | some checkpoint => rfl
      | none => simp [Function.comp_def]

/-- Entries before every checkpoint do not change the latest one. -/
theorem latestCheckpoint_prepend (plain : ∀ entry ∈ earlier, compactionOf entry = none) :
    latestCheckpoint (earlier ++ path) =
      (latestCheckpoint path).map fun checkpoint =>
        { checkpoint with before := earlier ++ checkpoint.before } := by
  induction earlier with
  | nil => simp
  | cons entry earlier ih =>
      rw [List.cons_append, latestCheckpoint,
        ih fun other member => plain other (List.mem_cons_of_mem _ member)]
      cases latestCheckpoint path with
      | some checkpoint => rfl
      | none => simp [plain entry]

theorem cutAtLast_eq_some {id : String} {outer inner : List SessionEntry}
    (cut : cutAtLast id path = some (outer, inner)) :
    path = outer ++ inner ∧ ∃ first rest, inner = first :: rest ∧ first.id = id := by
  induction path generalizing outer inner with
  | nil => cases cut
  | cons entry path ih =>
      unfold cutAtLast at cut
      split at cut
      next before within found =>
        obtain ⟨rfl, rfl⟩ := Prod.mk.inj (Option.some.inj cut)
        obtain ⟨split, first⟩ := ih found
        exact ⟨by rw [split]; rfl, first⟩
      · split at cut
        next same =>
          obtain ⟨rfl, rfl⟩ := Prod.mk.inj (Option.some.inj cut)
          exact ⟨rfl, entry, path, rfl, same⟩
        · cases cut

/-- The scope of a checkpoint ends where the checkpoint stands. -/
theorem compactionScope_eq_ok {outer scope : List SessionEntry}
    (cutAt : compactionScope checkpoint = .ok (outer, scope)) :
    checkpoint.before = outer ++ scope := by
  unfold compactionScope at cutAt
  split at cutAt
  · obtain ⟨rfl, rfl⟩ := Prod.mk.inj (Except.ok.inj cutAt)
    rfl
  · split at cutAt
    · obtain ⟨rfl, rfl⟩ := Prod.mk.inj (Except.ok.inj cutAt)
      simp
    · split at cutAt
      next found =>
        obtain rfl := Except.ok.inj cutAt
        exact (cutAtLast_eq_some found).1
      · cases cutAt

/-- The entries before the first kept entry of a checkpoint. -/
def beforeKept (compaction : Compaction) (scope : List SessionEntry) : List SessionEntry :=
  scope.takeWhile fun entry => entry.id ≠ compaction.firstKeptEntryId

/-- The entries from the first kept entry of a checkpoint on. -/
def keptAndAfter (checkpoint : Checkpoint) (scope : List SessionEntry) : List SessionEntry :=
  (scope.dropWhile fun entry => entry.id ≠ checkpoint.compaction.firstKeptEntryId) ++
    checkpoint.entry :: checkpoint.after

/-- Two sets of pending inputs select the same entries. -/
def PendingAgree (pending other : List String) (entries : List SessionEntry) : Prop :=
  ∀ entry ∈ entries, pending.contains entry.id = other.contains entry.id

theorem selectCompactedContext_congr {scope : List SessionEntry}
    (agree : PendingAgree pending other scope) :
    selectCompactedContext pending checkpoint scope =
      selectCompactedContext other checkpoint scope := by
  unfold selectCompactedContext
  have same (preserved : List SessionEntry) :
      (scope.filter fun entry => pending.contains entry.id && !isAmong preserved entry) =
        scope.filter fun entry => other.contains entry.id && !isAmong preserved entry := by
    apply List.filter_congr
    intro entry member
    rw [agree entry member]
  simp only [same]

/-- The sections depend on the pending inputs among the entries, and on no larger bound. -/
theorem sectionsWithin_congr {bound larger : Nat} (agree : PendingAgree pending other path)
    (within : path.length ≤ bound) (withinLarger : path.length ≤ larger) :
    sectionsWithin pending bound path = sectionsWithin other larger path := by
  induction bound generalizing path larger with
  | zero =>
      obtain rfl := List.length_eq_zero_iff.mp (Nat.le_zero.mp within)
      cases larger <;> rfl
  | succ bound ih =>
      cases path with
      | nil => cases larger <;> rfl
      | cons first rest =>
          obtain ⟨larger, rfl⟩ : ∃ smaller, larger = smaller + 1 :=
            Nat.exists_eq_succ_of_ne_zero (by rintro rfl; simp at withinLarger)
          unfold sectionsWithin
          cases found : latestCheckpoint (first :: rest) with
          | none => rfl
          | some checkpoint =>
              simp only
              cases cutAt : compactionScope checkpoint with
              | error reason => rfl
              | ok cut =>
                  obtain ⟨outer, scope⟩ := cut
                  have split := (latestCheckpoint_eq_some found).1
                  rw [compactionScope_eq_ok cutAt] at split
                  have shorter : outer.length < (first :: rest).length := by
                    rw [split]
                    simp only [List.length_append, List.length_cons]
                    omega
                  have outside : PendingAgree pending other outer := fun entry member =>
                    agree entry (by rw [split]; simp [member])
                  have inside : PendingAgree pending other scope := fun entry member =>
                    agree entry (by rw [split]; simp [member])
                  have outerSame := ih outside (by omega) (by omega : outer.length ≤ larger)
                  simp only [outerSame, selectCompactedContext_congr inside, bind, Except.bind]

theorem mem_originalUserCuts {before : List SessionEntry} {cut : OriginalUserCut}
    (member : cut ∈ originalUserCuts before path) :
    ∃ earlier entry, path = earlier ++ entry :: cut.later ∧ cut.before = before ++ earlier ∧
      compactionOf entry = some cut.compaction := by
  induction path generalizing before with
  | nil => cases member
  | cons entry path ih =>
      rcases List.mem_append.mp member with here | later
      · rw [Option.mem_toList] at here
        obtain ⟨compaction, holds, retained⟩ := Option.bind_eq_some_iff.mp here
        obtain ⟨retention, -, rfl⟩ := Option.map_eq_some_iff.mp retained
        exact ⟨[], entry, rfl, by simp, holds⟩
      · obtain ⟨earlier, other, rfl, before, holds⟩ := ih later
        exact ⟨entry :: earlier, other, rfl, by simp [before], holds⟩

theorem originalUserCuts_append (before : List SessionEntry)
    (plain : ∀ entry ∈ later, compactionOf entry = none) :
    originalUserCuts before (path ++ later) =
      (originalUserCuts before path).map fun cut => { cut with later := cut.later ++ later } := by
  induction path generalizing before with
  | nil =>
      rw [List.nil_append]
      induction later generalizing before with
      | nil => rfl
      | cons entry later ih =>
          have rest := ih (fun other member => plain other (List.mem_cons_of_mem _ member))
            (before ++ [entry])
          simp only [originalUserCuts, List.map_nil] at rest ⊢
          rw [rest, plain entry List.mem_cons_self]
          rfl
  | cons entry path ih =>
      rw [List.cons_append]
      unfold originalUserCuts
      rw [ih, List.map_append]
      cases compactionOf entry with
      | none => rfl
      | some compaction =>
          cases retained : compaction.retention with
          | none => simp [retained]
          | some retention => simp [retained]

theorem gapOwnedByLaterSummary_append (entries : List SessionEntry) (entryId : String)
    (plain : ∀ entry ∈ later, compactionOf entry = none) :
    gapOwnedByLaterSummary (entries ++ later) entryId =
      gapOwnedByLaterSummary entries entryId := by
  have unowned : gapOwnedByLaterSummary later entryId = false := by
    rw [gapOwnedByLaterSummary, List.any_eq_false]
    intro entry member
    simp [plain entry member]
  rw [gapOwnedByLaterSummary, List.any_append]
  rw [gapOwnedByLaterSummary] at unowned
  rw [unowned, Bool.or_false, gapOwnedByLaterSummary]

theorem projectGap_append (entries projected gap : List SessionEntry)
    (plain : ∀ entry ∈ later, compactionOf entry = none) :
    projectGap (entries ++ later) projected gap = projectGap entries projected gap := by
  induction gap generalizing projected with
  | nil => rfl
  | cons entry gap ih =>
      simp only [projectGap, gapOwnedByLaterSummary_append entries _ plain, ih]

/-- Entries after the last checkpoint restore no gap. -/
theorem projectedGapEntries_append (plain : ∀ entry ∈ later, compactionOf entry = none) :
    projectedGapEntries (path ++ later) = projectedGapEntries path := by
  unfold projectedGapEntries
  rw [originalUserCuts_append _ plain, List.foldl_map]
  congr 1
  funext projected cut
  exact projectGap_append _ _ _ plain

theorem carryRecord_congr {tailKinds otherKinds : List String}
    (same : ∀ kind record, transientOf entry = some (kind, record) →
      tailKinds.contains kind = otherKinds.contains kind)
    (carriedByKind : OrderedMap String (List SessionEntry)) :
    carryRecord tailKinds carriedByKind entry = carryRecord otherKinds carriedByKind entry := by
  unfold carryRecord
  cases found : transientOf entry with
  | none => rfl
  | some transient =>
      obtain ⟨kind, record⟩ := transient
      simp only [same kind record found]

/-- What is carried depends on the kinds of the records before the tail. -/
theorem carriedRecords_congr {tail otherTail before : List SessionEntry}
    (same : ∀ kind ∈ transientKinds before,
      (transientKinds tail).contains kind = (transientKinds otherTail).contains kind) :
    carriedRecords tail before = carriedRecords otherTail before := by
  have folded (carriedByKind : OrderedMap String (List SessionEntry)) :
      before.foldl (carryRecord (transientKinds tail)) carriedByKind =
        before.foldl (carryRecord (transientKinds otherTail)) carriedByKind := by
    induction before generalizing carriedByKind with
    | nil => rfl
    | cons entry before ih =>
        have here : carryRecord (transientKinds tail) carriedByKind entry =
            carryRecord (transientKinds otherTail) carriedByKind entry := by
          apply carryRecord_congr
          intro kind record found
          exact same kind (by simp [transientKinds, found])
        have there : ∀ kind ∈ transientKinds before,
            (transientKinds tail).contains kind = (transientKinds otherTail).contains kind := by
          intro kind member
          refine same kind ?_
          unfold transientKinds at member ⊢
          rw [List.filterMap_cons]
          split
          · exact member
          · exact List.mem_cons_of_mem _ member
        rw [List.foldl_cons, List.foldl_cons, here, ih there]
  rw [carriedRecords, carriedRecords, folded]

theorem transientKinds_append (entries others : List SessionEntry) :
    transientKinds (entries ++ others) = transientKinds entries ++ transientKinds others :=
  List.filterMap_append

theorem contextItems_append (entries others : List SessionEntry) :
    contextItems env (entries ++ others) = contextItems env entries ++ contextItems env others :=
  List.filterMap_append

/-- The items of a path, given the parent inputs that wait. -/
def pathItems (env : Platform) (pending : List String) (path : List SessionEntry) :
    Outcome (List SessionContextItem) := do
  let sections ← sectionsWithin pending path.length path
  return sections.flatMap (sectionItems env)

theorem sessionContextItems_eq (env : Platform) (path : List SessionEntry) :
    sessionContextItems env path =
      parentInputContextIds env path >>= fun pending => pathItems env pending path := by
  unfold sessionContextItems compactedContextSections pathItems
  cases parentInputContextIds env path <;> rfl

theorem pathItems_congr (agree : PendingAgree pending other path) :
    pathItems env pending path = pathItems env other path := by
  rw [pathItems, pathItems, sectionsWithin_congr agree (Nat.le_refl _) (Nat.le_refl _)]

/-- A path without a checkpoint emits its own items. -/
theorem pathItems_raw (plain : latestCheckpoint path = none) :
    pathItems env pending path = .ok (contextItems env path) := by
  cases path with
  | nil => rfl
  | cons first rest =>
      simp only [pathItems, sectionsWithin, List.length_cons, plain, bind, Except.bind, pure,
        Except.pure, List.flatMap_cons, List.flatMap_nil, List.append_nil, sectionItems]

/-- A path with a checkpoint emits what precedes the checkpoint's scope and the section. -/
theorem pathItems_checkpoint (found : latestCheckpoint path = some checkpoint) :
    pathItems env pending path =
      (do
        let (outer, scope) ← compactionScope checkpoint
        let earlier ← pathItems env pending outer
        return earlier ++
          sectionItems env (.compacted checkpoint
            (selectCompactedContext pending checkpoint scope))) := by
  have split := (latestCheckpoint_eq_some found).1
  cases path with
  | nil => cases found
  | cons first rest =>
      simp only [pathItems, List.length_cons, sectionsWithin, found]
      cases cut : compactionScope checkpoint with
      | error reason => rfl
      | ok cutAt =>
          obtain ⟨outer, scope⟩ := cutAt
          rw [compactionScope_eq_ok cut] at split
          have within : outer.length ≤ rest.length := by
            have lengths := congrArg List.length split
            simp only [List.length_append, List.length_cons] at lengths
            omega
          have same : sectionsWithin pending rest.length outer =
              sectionsWithin pending outer.length outer :=
            sectionsWithin_congr (fun _ _ => rfl) within (Nat.le_refl _)
          simp only [bind, Except.bind, same]
          cases sectionsWithin pending outer.length outer with
          | error reason => rfl
          | ok sections => simp [pure, Except.pure]

end PiAdaptative.Session
