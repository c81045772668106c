import PiAdaptative.BranchCaches.BranchWalks

/-!
# Transparent caches

In a run of undisturbed operations every query of the manager answers what a fresh walk over the
current session and branch answers.
-/

namespace PiAdaptative.BranchCaches

open Session SessionEvidence CachedManager

variable {env : Platform} {manager before after : CachedManager} {operation : BranchOperation}

/-- A remembered latest entry is the one of its leaf's branch. -/
structure HoldsLatest (entries : List SessionEntry) (customType : String) (held : LatestMatch) :
    Prop where
  known : Known entries held.leafId
  found : ∃ line, LeafLine entries held.leafId line ∧ held.found = line.find? (isCustom customType)

/-- Remembered entries are those of their leaf's branch. -/
structure HoldsEntries (entries : List SessionEntry) (held : BranchEntries) : Prop where
  known : Known entries held.leafId
  found : ∃ line, LeafLine entries held.leafId line ∧
    held.entries = (line.filter (isCustomOf held.types)).reverse

/-- A source's cache of the current session has read its first entries. -/
structure HoldsSource {σ : Type} (step : σ → SessionEntry → Outcome σ) (start : σ)
    (manager : CachedManager) (held : SourceCache σ) : Prop where
  byId : held.byId ≤ manager.byId
  session : held.session ≤ manager.session
  unread : held.read.count = 0 → held.read.state = start
  represents : held.byId = manager.byId → held.session = manager.session →
    PrefixFold.Represents step start manager.entries held.read

/-- The entries of the manager are linked and its caches hold what they should. -/
structure CachesHold (env : Platform) (manager : CachedManager) : Prop where
  linked : Linked manager.entries
  leaf : Known manager.entries manager.leafId
  latest : ∀ cache, manager.latestCustomEntryCache = some cache → ∀ customType held,
    cache.perType.get? customType = some held → HoldsLatest manager.entries customType held
  entries : ∀ cache, manager.branchCustomEntriesCache = some cache → ∀ key held,
    cache.perKey.get? key = some held → HoldsEntries manager.entries held
  receipts : ∀ held, manager.parentInputReceipts = some held →
    HoldsSource (takeReceipt env) .empty manager held
  evidence : ∀ held, manager.parentEvidenceCache = some held →
    HoldsSource (SessionEntryEvidenceIndex.add env) .empty manager held

theorem cachesHold_initial (env : Platform) : CachesHold env .initial where
  linked := linked_nil
  leaf := nofun
  latest := nofun
  entries := nofun
  receipts := nofun
  evidence := nofun

variable {start : Option SessionEntry}

theorem visit_eq (linked : Linked manager.entries)
    (first : ∀ other, start = some other → other ∈ manager.entries) :
    ∃ line, Line manager.entries start line ∧ line.length ≤ manager.entries.length + 1 ∧
      visitSessionAncestry (entriesById manager.entries) (manager.entries.length + 1) start =
        .ok line := by
  obtain ⟨line, held⟩ := linked.exists_line first
  have short : line.length ≤ manager.entries.length + 1 :=
    Nat.le_succ_of_le (Line.length_le held first)
  exact ⟨line, held, short, visitSessionAncestry_eq_ok.mpr ⟨held, short⟩⟩

/-- A walk that may reuse a remembered match finds what a fresh walk finds. -/
theorem findLatestCustomEntry_eq (linked : Linked manager.entries)
    (first : ∀ other, start = some other → other ∈ manager.entries) (customType : String)
    {cached : Option LatestMatch}
    (holds : ∀ held, cached = some held → HoldsLatest manager.entries customType held) :
    ∃ line, Line manager.entries start line ∧
      manager.findLatestCustomEntry customType start cached =
        .ok (line.find? (isCustom customType)) ∧
      freshLatest manager.entries start customType = .ok (line.find? (isCustom customType)) := by
  obtain ⟨line, held, short, visited⟩ := visit_eq linked first
  refine ⟨line, held, ?_, by rw [freshLatest, visited]; rfl⟩
  have result : (searchLine customType (cached.bind LatestMatch.leafId) line).result
      (cached.bind LatestMatch.found) = line.find? (isCustom customType) := by
    refine searchLine_result fun newer entry older split met => ?_
    obtain ⟨remembered, rfl, leaf⟩ := Option.bind_eq_some_iff.mp met
    obtain ⟨-, branch, leafLine, found⟩ := holds remembered rfl
    rw [leaf] at leafLine
    rw [Option.bind_some, found, linked.leafLine_suffix held first split leafLine]
  rw [findLatestCustomEntry, searchLatest_eq held short, ← result]
  cases searchLine customType (cached.bind LatestMatch.leafId) line <;> rfl

variable {customType : String} {held : LatestMatch}

theorem get?_evictOldest {perType : OrderedMap String LatestMatch}
    (found : (evictOldest perType).get? customType = some held) :
    perType.get? customType = some held := by
  unfold evictOldest at found
  split at found
  · split at found
    · exact (OrderedMap.get?_of_erase found).1
    · exact found
  · exact found

section

variable (holds : CachesHold env manager)
include holds

theorem CachesHold.latestCache
    (found : manager.latestCustomEntryCacheForIndex.perType.get? customType = some held) :
    HoldsLatest manager.entries customType held := by
  unfold latestCustomEntryCacheForIndex at found
  split at found
  · next cache present =>
      split at found
      · exact holds.latest cache present customType held found
      · cases found
  · cases found

/-- The caches after a latest entry has been remembered. -/
theorem CachesHold.setLatest {cache : LatestCustomEntryCache}
    (held : ∀ customType found, cache.perType.get? customType = some found →
      HoldsLatest manager.entries customType found) :
    CachesHold env { manager with latestCustomEntryCache := some cache } where
  linked := holds.linked
  leaf := holds.leaf
  latest := by
    rintro _ ⟨⟩
    exact held
  entries := holds.entries
  receipts held present :=
    let source := holds.receipts held present
    ⟨source.byId, source.session, source.unread, source.represents⟩
  evidence held present :=
    let source := holds.evidence held present
    ⟨source.byId, source.session, source.unread, source.represents⟩

theorem CachesHold.refreshLatest (customType : String) {cached : Option LatestMatch}
    (remembered : ∀ held, cached = some held → HoldsLatest manager.entries customType held) :
    (manager.refreshLatest customType manager.latestCustomEntryCacheForIndex cached).1 =
        freshLatest manager.entries (leafEntry manager.entries manager.leafId) customType ∧
      CachesHold env
        (manager.refreshLatest customType manager.latestCustomEntryCacheForIndex cached).2 := by
  obtain ⟨line, held, found, fresh⟩ :=
    findLatestCustomEntry_eq holds.linked leafEntry_mem customType remembered
  unfold CachedManager.refreshLatest
  rw [found, fresh]
  refine ⟨rfl, holds.setLatest fun other match' present => ?_⟩
  have kept := get?_evictOldest present
  rw [OrderedMap.get?_set] at kept
  split at kept
  · next same =>
      cases kept
      rw [same]
      exact ⟨holds.leaf, line, held, rfl⟩
  · exact holds.latestCache (OrderedMap.get?_of_erase kept).1

theorem CachesHold.getLatest (customType : String) (fromId : Option String) :
    Serves env manager (.getLatestCustomEntryOnBranch customType fromId) ∧
      CachesHold env (manager.getLatestCustomEntryOnBranch customType fromId).2 := by
  cases fromId with
  | some id =>
      have first : ∀ other, entriesById manager.entries id = some other →
          other ∈ manager.entries := fun other present => (entriesById_eq_some present).1
      have nothing : ∀ held : LatestMatch, none = some held →
          HoldsLatest manager.entries customType held := by
        rintro _ ⟨⟩
      obtain ⟨line, -, found, fresh⟩ :=
        findLatestCustomEntry_eq holds.linked first customType nothing
      exact ⟨found.trans fresh.symm, holds⟩
  | none =>
      unfold Serves CachedManager.getLatestCustomEntryOnBranch
      dsimp only
      cases present : manager.latestCustomEntryCacheForIndex.perType.get? customType with
      | none => exact holds.refreshLatest customType (by rintro _ ⟨⟩)
      | some cached =>
          have remembered := holds.latestCache present
          dsimp only
          split
          · next same =>
              obtain ⟨-, line, leafLine, found⟩ := remembered
              rw [same] at leafLine
              refine ⟨?_, holds.setLatest fun other match' kept => holds.latestCache kept⟩
              obtain ⟨walked, held, -, visited⟩ := visit_eq holds.linked leafEntry_mem
              rw [freshLatest, visited, found, leafLine.unique held]
              rfl
          · exact holds.refreshLatest customType (by rintro _ ⟨⟩; exact remembered)

end

theorem isCustomOf_congr {types other : List String}
    (same : ∀ customType, customType ∈ types ↔ customType ∈ other) :
    isCustomOf types = isCustomOf other := by
  funext entry
  rw [Bool.eq_iff_iff, isCustomOf, isCustomOf, List.any_eq_true, List.any_eq_true]
  simp only [same]

variable {cached : Option BranchEntries}

theorem collect_eq (linked : Linked manager.entries) (customTypes : List String)
    (holds : ∀ held, cached = some held → HoldsEntries manager.entries held ∧
      ∀ customType, customType ∈ held.types ↔ customType ∈ customTypes) :
    ∃ line walked, LeafLine manager.entries manager.leafId line ∧
      collectCustom (entriesById manager.entries) customTypes (cached.bind BranchEntries.leafId)
        (manager.entries.length + 1) (leafEntry manager.entries manager.leafId) = .ok walked ∧
      (if walked.2 = true then (cached.map BranchEntries.entries).getD [] else []) ++
        walked.1.reverse = (line.filter (isCustomOf customTypes)).reverse ∧
      freshEntries manager.entries (leafEntry manager.entries manager.leafId) customTypes =
        .ok (line.filter (isCustomOf customTypes)).reverse := by
  obtain ⟨line, held, short, visited⟩ := visit_eq linked leafEntry_mem
  refine ⟨line, _, held, collectCustom_eq held short, ?_, by rw [freshEntries, visited]; rfl⟩
  refine collectLine_result fun newer entry older split met => ?_
  obtain ⟨remembered, rfl, leaf⟩ := Option.bind_eq_some_iff.mp met
  obtain ⟨⟨-, branch, leafLine, found⟩, same⟩ := holds remembered rfl
  rw [leaf] at leafLine
  rw [Option.map_some, Option.getD_some, found, isCustomOf_congr same,
    linked.leafLine_suffix held leafEntry_mem split leafLine]

section

variable (holds : CachesHold env manager)
include holds

theorem CachesHold.setEntries {cache : BranchCustomEntriesCache}
    (held : ∀ key found, cache.perKey.get? key = some found → HoldsEntries manager.entries found) :
    CachesHold env { manager with branchCustomEntriesCache := some cache } where
  linked := holds.linked
  leaf := holds.leaf
  latest := holds.latest
  entries := by
    rintro _ ⟨⟩
    exact held
  receipts held present :=
    let source := holds.receipts held present
    ⟨source.byId, source.session, source.unread, source.represents⟩
  evidence held present :=
    let source := holds.evidence held present
    ⟨source.byId, source.session, source.unread, source.represents⟩

theorem CachesHold.branchCache {key : String} {held : BranchEntries}
    (found : manager.branchCustomEntriesCacheForIndex.perKey.get? key = some held) :
    HoldsEntries manager.entries held ∧ ∃ cache, manager.branchCustomEntriesCache = some cache ∧
      cache.byId = manager.byId ∧ cache.perKey.get? key = some held := by
  unfold branchCustomEntriesCacheForIndex at found
  split at found
  · next cache present =>
      split at found
      · next same =>
          exact ⟨holds.entries cache present key held found, cache, present, same, found⟩
      · cases found
  · cases found

theorem CachesHold.refreshEntries (customTypes : List String)
    (remembered : ∀ held, cached = some held → HoldsEntries manager.entries held ∧
      ∀ customType, customType ∈ held.types ↔ customType ∈ customTypes) :
    (manager.refreshEntries customTypes manager.branchCustomEntriesCacheForIndex cached).1 =
        freshEntries manager.entries (leafEntry manager.entries manager.leafId) customTypes ∧
      CachesHold env
        (manager.refreshEntries customTypes manager.branchCustomEntriesCacheForIndex cached).2 := by
  obtain ⟨line, walked, held, collected, whole, fresh⟩ :=
    collect_eq holds.linked customTypes remembered
  unfold CachedManager.refreshEntries
  rw [collected, fresh]
  dsimp only
  rw [whole]
  refine ⟨rfl, holds.setEntries fun key found present => ?_⟩
  rw [OrderedMap.get?_set] at present
  split at present
  · cases present
    exact ⟨holds.leaf, line, held, rfl⟩
  · exact (holds.branchCache present).1

theorem CachesHold.getEntries {customTypes : List String} (agrees : KeyAgrees manager customTypes) :
    Serves env manager (.getCustomEntriesOnBranch customTypes) ∧
      CachesHold env (manager.getCustomEntriesOnBranch customTypes).2 := by
  unfold Serves CachedManager.getCustomEntriesOnBranch
  dsimp only
  cases present : manager.branchCustomEntriesCacheForIndex.perKey.get? (typesKey customTypes) with
  | none => exact holds.refreshEntries customTypes (by rintro _ ⟨⟩)
  | some cached =>
      obtain ⟨remembered, cache, inCache, sameMap, kept⟩ := holds.branchCache present
      have same := agrees cache cached inCache sameMap kept
      dsimp only
      split
      · next sameLeaf =>
          obtain ⟨-, line, leafLine, found⟩ := remembered
          rw [sameLeaf] at leafLine
          refine ⟨?_, holds.setEntries fun key other listed => (holds.branchCache listed).1⟩
          obtain ⟨walked, held, -, visited⟩ := visit_eq holds.linked leafEntry_mem
          rw [freshEntries, visited, found, isCustomOf_congr same, leafLine.unique held]
          rfl
      · exact holds.refreshEntries customTypes (by rintro _ ⟨⟩; exact ⟨remembered, same⟩)

end

section Sources

variable {σ : Type} {step : σ → SessionEntry → Outcome σ} {start : σ}

/-- A source that was not read from an earlier session reads as a fresh one. -/
theorem readSource_eq {cache : Option (SourceCache σ)}
    (holds : ∀ held, cache = some held → HoldsSource step start manager held)
    (current : SourceCurrent manager cache) :
    (manager.readSource step start cache).1 = manager.entries.foldlM step start ∧
      HoldsSource step start manager (manager.readSource step start cache).2 := by
  have held : (manager.currentSource start cache).byId = manager.byId ∧
      PrefixFold.Represents step start manager.entries
        (manager.currentSource start cache).read := by
    have fresh := PrefixFold.represents_start step start manager.entries
    unfold currentSource
    split
    · next held =>
        split
        · exact ⟨rfl, fresh⟩
        · next kept =>
            rw [not_or, not_not, Nat.not_lt] at kept
            obtain ⟨sameMap, within⟩ := kept
            have source := holds held rfl
            refine ⟨sameMap, ?_⟩
            by_cases unread : held.read.count = 0
            · have state := source.unread unread
              rw [show held.read = { count := 0, state := start } by
                rw [← unread, ← state]]
              exact fresh
            · exact source.represents sameMap
                (current held rfl sameMap (Nat.pos_of_ne_zero unread) within)
    · exact ⟨rfl, fresh⟩
  obtain ⟨represents, result⟩ := PrefixFold.catchUp_spec held.2
  unfold readSource
  refine ⟨result, held.1.le, Nat.le_refl _, fun unread => ?_, fun _ _ => represents⟩
  have folded := represents.folded
  rw [unread] at folded
  exact (Except.ok.inj folded).symm

/-- A change that keeps or replaces the map, and starts another session, leaves sources behind. -/
theorem HoldsSource.leave {next : CachedManager} {held : SourceCache σ}
    (holds : HoldsSource step start manager held) (byId : manager.byId ≤ next.byId)
    (session : manager.session < next.session) : HoldsSource step start next held where
  byId := holds.byId.trans byId
  session := holds.session.trans session.le
  unread := holds.unread
  represents _ same := absurd same (Nat.ne_of_lt (Nat.lt_of_le_of_lt holds.session session))

/-- A change of the manager that leaves the session and adds entries at the end keeps sources. -/
theorem HoldsSource.grow {next : CachedManager} {held : SourceCache σ}
    (holds : HoldsSource step start manager held) (byId : next.byId = manager.byId)
    (session : next.session = manager.session) {more : List SessionEntry}
    (entries : next.entries = manager.entries ++ more) : HoldsSource step start next held where
  byId := byId ▸ holds.byId
  session := session ▸ holds.session
  unread := holds.unread
  represents sameMap sameSession := by
    rw [entries]
    exact (holds.represents (sameMap.trans byId) (sameSession.trans session)).append more

end Sources

variable {entries : List SessionEntry}

theorem HoldsLatest.append {entry : SessionEntry} (holds : HoldsLatest entries customType held)
    (fresh : ∀ other ∈ entries, other.id ≠ entry.id)
    (missed : ∀ other ∈ entries, other.parentId ≠ some entry.id) :
    HoldsLatest (entries ++ [entry]) customType held := by
  obtain ⟨known, line, leafLine, found⟩ := holds
  exact ⟨known.append, line, leafLine.append fresh missed known, found⟩

theorem HoldsEntries.append {entry : SessionEntry} {held : BranchEntries}
    (holds : HoldsEntries entries held) (fresh : ∀ other ∈ entries, other.id ≠ entry.id)
    (missed : ∀ other ∈ entries, other.parentId ≠ some entry.id) :
    HoldsEntries (entries ++ [entry]) held := by
  obtain ⟨known, line, leafLine, found⟩ := holds
  exact ⟨known.append, line, leafLine.append fresh missed known, found⟩

theorem CachesHold.moveLeaf (holds : CachesHold env manager) {leafId : Option String}
    (known : Known manager.entries leafId) : CachesHold env { manager with leafId } where
  linked := holds.linked
  leaf := known
  latest := holds.latest
  entries := holds.entries
  receipts held present := (holds.receipts held present).grow rfl rfl (List.append_nil _).symm
  evidence held present := (holds.evidence held present).grow rfl rfl (List.append_nil _).symm

/-- Every undisturbed operation keeps the caches, and a query answers as a fresh walk. -/
theorem CachesHold.step (holds : CachesHold env before)
    (taken : CacheStep env before operation after) (undisturbed : Undisturbed before operation) :
    Serves env before operation ∧ CachesHold env after := by
  cases taken with
  | @append entry named fresh follows =>
      refine ⟨trivial, holds.linked.append named fresh follows undisturbed, ?_, ?_, ?_, ?_, ?_⟩
      · rintro _ ⟨⟩
        exact ⟨entry, List.mem_append_right _ (List.mem_singleton.mpr rfl), rfl⟩
      · exact fun cache present customType held found =>
          (holds.latest cache present customType held found).append fresh undisturbed
      · exact fun cache present key held found =>
          (holds.entries cache present key held found).append fresh undisturbed
      · exact fun held present => (holds.receipts held present).grow rfl rfl rfl
      · exact fun held present => (holds.evidence held present).grow rfl rfl rfl
  | branch present =>
      refine ⟨trivial, holds.moveLeaf ?_⟩
      rintro _ ⟨⟩
      exact present
  | resetLeaf => exact ⟨trivial, holds.moveLeaf nofun⟩
  | newSession =>
      refine ⟨trivial, linked_nil, nofun, nofun, nofun, ?_, ?_⟩
      · exact fun held present =>
          (holds.receipts held present).leave (Nat.le_refl _) (Nat.lt_succ_self _)
      · exact fun held present =>
          (holds.evidence held present).leave (Nat.le_refl _) (Nat.lt_succ_self _)
  | @adopt entries copy indexed =>
      obtain ⟨named, distinct, lines⟩ := (buildIndex_eq_ok.mp indexed).1
      refine ⟨trivial, ⟨named, distinct, lines⟩, ?_, nofun, nofun, ?_, ?_⟩
      · intro id leaf
        obtain ⟨entry, last, same⟩ := Option.map_eq_some_iff.mp leaf
        exact ⟨entry, List.mem_of_getLast? last, same⟩
      · exact fun held present =>
          (holds.receipts held present).leave (Nat.le_succ _) (Nat.lt_succ_self _)
      · exact fun held present =>
          (holds.evidence held present).leave (Nat.le_succ _) (Nat.lt_succ_self _)
  | getLatestCustomEntryOnBranch customType fromId => exact holds.getLatest customType fromId
  | getCustomEntriesOnBranch customTypes => exact holds.getEntries undisturbed
  | getParentInput deliveryId =>
      obtain ⟨answer, source⟩ := readSource_eq holds.receipts undisturbed
      refine ⟨?_, holds.linked, holds.leaf, holds.latest, holds.entries, ?_, ?_⟩
      · unfold Serves CachedManager.getParentInput freshParentInput
        dsimp only
        rw [answer]
        cases before.entries.foldlM (takeReceipt env) .empty <;> rfl
      · rintro _ ⟨⟩
        exact source.grow rfl rfl (List.append_nil _).symm
      · exact fun held present =>
          (holds.evidence held present).grow rfl rfl (List.append_nil _).symm
  | getParentInputConsumptionSource =>
      obtain ⟨answer, source⟩ := readSource_eq holds.evidence undisturbed
      refine ⟨answer, holds.linked, holds.leaf, holds.latest, holds.entries, ?_, ?_⟩
      · exact fun held present =>
          (holds.receipts held present).grow rfl rfl (List.append_nil _).symm
      · rintro _ ⟨⟩
        exact source.grow rfl rfl (List.append_nil _).symm

abbrev CacheRun (env : Platform) (history : List (CachedManager × BranchOperation))
    (manager : CachedManager) : Prop :=
  Execution (CacheStep env) .initial history manager

theorem CachesHold.of_run {history : List (CachedManager × BranchOperation)}
    (run : CacheRun env history manager)
    (undisturbed : ∀ entry ∈ history, Undisturbed entry.1 entry.2) :
    CachesHold env manager ∧ ∀ entry ∈ history, Serves env entry.1 entry.2 := by
  induction run with
  | start => exact ⟨cachesHold_initial env, by simp⟩
  | @extend before after history operation _ taken ih =>
      rw [List.forall_mem_append, List.forall_mem_singleton] at undisturbed
      obtain ⟨holds, served⟩ := ih undisturbed.1
      obtain ⟨serves, kept⟩ := holds.step taken undisturbed.2
      refine ⟨kept, ?_⟩
      rw [List.forall_mem_append, List.forall_mem_singleton]
      exact ⟨served, serves⟩

/-- In a run of undisturbed operations every query answers as a fresh walk. -/
theorem branch_caches_are_transparent (env : Platform)
    (history : List (CachedManager × BranchOperation)) (manager : CachedManager)
    (run : CacheRun env history manager)
    (undisturbed : ∀ entry ∈ history, Undisturbed entry.1 entry.2) :
    ∀ entry ∈ history, Serves env entry.1 entry.2 :=
  (CachesHold.of_run run undisturbed).2

def digestPlatform : Platform :=
  { plainPlatform with
    sha256 := fun _ => "0000000000000000000000000000000000000000000000000000000000000000" }

/-- A message that holds a parent input. -/
def inputEntry : SessionEntry where
  id := "input"
  parentId := none
  timestamp := ""
  body := .customMessage "note" .null true (some (.obj [("parentInput", .obj [("version", .num 1),
    ("deliveryId", .str "delivery"), ("payloadDigest", .str (digestPlatform.sha256 "")),
    ("messageDigest", .str (digestPlatform.sha256 "")),
    ("origin", .obj [("sessionId", .str "session"), ("leafId", .str "leaf")])])]))

/-- A message of the next session. -/
def laterEntry : SessionEntry where
  id := "later"
  parentId := none
  timestamp := ""
  body := userMessage "Hello"

/-- A session whose input has been read. -/
def readSession : CachedManager :=
  ((CachedManager.initial.append inputEntry).getParentInput digestPlatform "delivery").2

def nextSession : CachedManager := readSession.newSession.append laterEntry

theorem read_run : CacheRun digestPlatform
    [(.initial, .append inputEntry),
      (CachedManager.initial.append inputEntry, .getParentInput "delivery")] readSession :=
  ((Execution.start CachedManager.initial).extend
    (.append (by decide) (by rintro _ ⟨⟩) (by rintro _ ⟨⟩))).extend (.getParentInput "delivery")

theorem earlier_input_is_served : ∃ history manager, CacheRun digestPlatform history manager ∧
    ∃ entry ∈ history, ¬Serves digestPlatform entry.1 entry.2 := by
  have stale : CacheStep digestPlatform nextSession (.getParentInput "delivery")
      (nextSession.getParentInput digestPlatform "delivery").2 := .getParentInput "delivery"
  have run := ((read_run.extend .newSession).extend
    (.append (by decide) (by rintro _ ⟨⟩) (by rintro _ ⟨⟩))).extend stale
  refine ⟨_, _, run, (nextSession, .getParentInput "delivery"),
    List.mem_append_right _ List.mem_cons_self, fun served => ?_⟩
  have found := congrArg (fun answer => answer.toOption.join.isSome) served
  exact absurd found (by decide +kernel)

theorem read_input_is_served :
    Serves digestPlatform (CachedManager.initial.append inputEntry) (.getParentInput "delivery") :=
  branch_caches_are_transparent digestPlatform _ readSession read_run (by
    rw [List.forall_mem_cons, List.forall_mem_singleton]
    exact ⟨by rintro _ ⟨⟩, by rintro _ ⟨⟩⟩) _
    (List.mem_cons_of_mem _ List.mem_cons_self)

end PiAdaptative.BranchCaches
