import Mathlib.Data.List.Perm.Subperm
import PiAdaptative.Foundations.Execution
import PiAdaptative.Foundations.Lineage
import PiAdaptative.Session.SessionManager

/-!
# Branches of a session

The entries of a session grow by appends: every entry has an identity of its own and follows an earlier
entry or none.  So every entry has one path from the root, appends leave the paths of earlier entries
alone, and the path of an appended entry extends the path of its parent.
-/

namespace PiAdaptative.Session

variable {env : Platform} {lookup : Lookup} {entry : SessionEntry}
variable {entries path : List SessionEntry} {leafId : Option String}

theorem entriesById_append (entries : List SessionEntry) (entry : SessionEntry) (id : String) :
    entriesById (entries ++ [entry]) id =
      if entry.id = id then some entry else entriesById entries id := by
  simp only [entriesById, List.reverse_append, List.reverse_cons, List.reverse_nil, List.nil_append,
    List.singleton_append, List.find?_cons]
  by_cases same : entry.id = id <;> simp [same]

theorem entriesById_eq_some {id : String} (found : entriesById entries id = some entry) :
    entry ∈ entries ∧ entry.id = id := by
  have member := List.mem_of_find?_eq_some found
  have named := List.find?_some found
  exact ⟨List.mem_reverse.mp member, by simpa using named⟩

/-- Entries of distinct identities are found under them. -/
theorem entriesById_of_mem (distinct : (entries.map SessionEntry.id).Nodup)
    (member : entry ∈ entries) : entriesById entries entry.id = some entry := by
  cases found : entriesById entries entry.id with
  | none =>
      rw [entriesById, List.find?_eq_none] at found
      exact absurd (by simp) (found entry (List.mem_reverse.mpr member))
  | some other =>
      obtain ⟨inside, same⟩ := entriesById_eq_some found
      rw [List.inj_on_of_nodup_map distinct inside member same]

/-- Entries as appends leave them. -/
inductive Grown : List SessionEntry → Prop
  | fresh : Grown []
  | append {entries : List SessionEntry} {entry : SessionEntry} :
      Grown entries →
      entry.id ≠ "" →
      (∀ other ∈ entries, other.id ≠ entry.id) →
      (∀ parentId, entry.parentId = some parentId → ∃ parent ∈ entries, parent.id = parentId) →
      Grown (entries ++ [entry])

theorem Grown.named (grown : Grown entries) : ∀ entry ∈ entries, entry.id ≠ "" := by
  induction grown with
  | fresh => exact fun _ member => nomatch member
  | append _ named _ _ ih =>
      intro entry member
      rcases List.mem_append.mp member with before | last
      · exact ih entry before
      · obtain rfl := List.mem_singleton.mp last
        exact named

theorem Grown.ids_nodup (grown : Grown entries) : (entries.map SessionEntry.id).Nodup := by
  induction grown with
  | fresh => exact List.nodup_nil
  | append _ _ distinct _ ih =>
      rw [List.map_append, List.nodup_append]
      refine ⟨ih, List.nodup_singleton _, ?_⟩
      intro id member other last
      obtain ⟨earlier, before, rfl⟩ := List.mem_map.mp member
      obtain rfl := List.mem_singleton.mp last
      exact distinct earlier before

/-- Every entry is found under its identity. -/
theorem Grown.byId (grown : Grown entries) (member : entry ∈ entries) :
    entriesById entries entry.id = some entry :=
  entriesById_of_mem grown.ids_nodup member

theorem Grown.rooted (grown : Grown entries) {parentId : String} (member : entry ∈ entries)
    (named : entry.parentId = some parentId) : ∃ parent ∈ entries, parent.id = parentId := by
  induction grown with
  | fresh => cases member
  | append _ _ _ rooted ih =>
      rcases List.mem_append.mp member with before | last
      · obtain ⟨parent, inside, same⟩ := ih before
        exact ⟨parent, List.mem_append_left _ inside, same⟩
      · obtain rfl := List.mem_singleton.mp last
        obtain ⟨parent, inside, same⟩ := rooted parentId named
        exact ⟨parent, List.mem_append_left _ inside, same⟩

theorem parentEntry_eq_some {parent : SessionEntry}
    (found : parentEntry (entriesById entries) entry = some parent) :
    parent ∈ entries ∧ entry.parentId = some parent.id := by
  obtain ⟨parentId, named, present⟩ := Option.bind_eq_some_iff.mp found
  obtain ⟨member, rfl⟩ := entriesById_eq_some present
  exact ⟨member, (truthy_eq_some.mp named).1⟩

/-- Appends leave earlier entries where they are found. -/
theorem Grown.byId_append (grown : Grown entries) (distinct : ∀ other ∈ entries, other.id ≠ entry.id) :
    ∀ other ∈ entries, entriesById (entries ++ [entry]) other.id = some other := by
  intro other member
  rw [entriesById_append, if_neg (distinct other member).symm, grown.byId member]

/-- The line of an entry of a session: the entry and its ancestors. -/
abbrev Line (entries : List SessionEntry) : Option SessionEntry → List SessionEntry → Prop :=
  Lineage (parentEntry (entriesById entries))

variable {start : Option SessionEntry} {line : List SessionEntry}

theorem visitSessionAncestry_eq_ok {bound : Nat} :
    visitSessionAncestry lookup bound start = .ok line ↔
      Lineage (parentEntry lookup) start line ∧ line.length ≤ bound := by
  induction bound generalizing start line with
  | zero =>
      cases start with
      | none =>
          constructor
          · rintro visited
            obtain rfl := Except.ok.inj visited
            exact ⟨.root, Nat.le_refl _⟩
          · rintro ⟨lineage, -⟩
            cases lineage
            rfl
      | some entry =>
          refine ⟨nofun, ?_⟩
          rintro ⟨lineage, short⟩
          cases lineage
          simp at short
  | succ bound ih =>
      cases start with
      | none =>
          constructor
          · rintro visited
            obtain rfl := Except.ok.inj visited
            exact ⟨.root, Nat.zero_le _⟩
          · rintro ⟨lineage, -⟩
            cases lineage
            rfl
      | some entry =>
          simp only [visitSessionAncestry, bind_eq_ok, pure_eq_ok, ih]
          constructor
          · rintro ⟨older, ⟨lineage, short⟩, rfl⟩
            exact ⟨.child lineage, by simpa using short⟩
          · rintro ⟨lineage, short⟩
            cases lineage with
            | child rest => exact ⟨_, ⟨rest, by simpa using short⟩, rfl⟩

theorem Line.mem (lineage : Line entries start line)
    (first : ∀ entry, start = some entry → entry ∈ entries) : ∀ entry ∈ line, entry ∈ entries :=
  Lineage.forall_mem lineage first fun _ found => (parentEntry_eq_some found).1

/-- Entries that are still found keep their lines. -/
theorem Grown.line_congr {longer : List SessionEntry} (grown : Grown entries)
    (found : ∀ other ∈ entries, entriesById longer other.id = some other)
    (lineage : Line entries start line) (first : ∀ entry, start = some entry → entry ∈ entries) :
    Line longer start line := by
  refine Lineage.congr lineage fun entry member => ?_
  unfold parentEntry
  cases named : truthy entry.parentId with
  | none => rfl
  | some parentId =>
      obtain ⟨parent, inside, rfl⟩ :=
        grown.rooted (Line.mem lineage first entry member) (truthy_eq_some.mp named).1
      rw [Option.bind_some, Option.bind_some, found parent inside, grown.byId inside]

/-- Every entry of a grown session has a line. -/
theorem Grown.exists_line (grown : Grown entries) (member : entry ∈ entries) :
    ∃ line, Line entries (some entry) line := by
  induction grown generalizing entry with
  | fresh => cases member
  | @append before last grown named distinct rooted ih =>
      have earlier {other : SessionEntry} (inside : other ∈ before) :
          ∃ line, Line (before ++ [last]) (some other) line := by
        obtain ⟨line, lineage⟩ := ih inside
        refine ⟨line, grown.line_congr (grown.byId_append distinct) lineage ?_⟩
        rintro _ ⟨⟩
        exact inside
      rcases List.mem_append.mp member with inside | here
      · exact earlier inside
      · obtain rfl := List.mem_singleton.mp here
        cases parent : parentEntry (entriesById (before ++ [entry])) entry with
        | none => exact ⟨[entry], .child (by rw [parent]; exact .root)⟩
        | some other =>
            have following := (parentEntry_eq_some parent).2
            obtain ⟨real, inside, same⟩ := rooted _ following
            have found : entriesById (before ++ [entry]) other.id = some real :=
              same ▸ grown.byId_append distinct real inside
            have unique : other = real := by
              obtain ⟨parentId, read, present⟩ := Option.bind_eq_some_iff.mp parent
              obtain ⟨-, rfl⟩ := entriesById_eq_some present
              exact Option.some.inj (present.symm.trans found)
            obtain ⟨line, lineage⟩ := earlier inside
            exact ⟨entry :: line, .child (by rw [parent, unique]; exact lineage)⟩

/-- A line is no longer than its session. -/
theorem Line.length_le (lineage : Line entries start line)
    (first : ∀ entry, start = some entry → entry ∈ entries) : line.length ≤ entries.length :=
  (List.Nodup.subperm (Lineage.nodup lineage)
    fun _ member => Line.mem lineage first _ member).length_le

def IsPath (entries : List SessionEntry) (leafId : Option String) (path : List SessionEntry) :
    Prop :=
  ∃ line, Line entries (leafId.bind (entriesById entries)) line ∧ path = line.reverse

theorem IsPath.unique {other : List SessionEntry} (first : IsPath entries leafId path)
    (second : IsPath entries leafId other) : path = other := by
  obtain ⟨line, lineage, rfl⟩ := first
  obtain ⟨again, relined, rfl⟩ := second
  rw [lineage.unique relined]

theorem bind_byId_mem : ∀ entry, leafId.bind (entriesById entries) = some entry →
    entry ∈ entries := by
  intro entry found
  obtain ⟨id, -, present⟩ := Option.bind_eq_some_iff.mp found
  exact (entriesById_eq_some present).1

theorem IsPath.mem (isPath : IsPath entries leafId path) : ∀ entry ∈ path, entry ∈ entries := by
  obtain ⟨line, lineage, rfl⟩ := isPath
  intro entry member
  exact Line.mem lineage bind_byId_mem entry (List.mem_reverse.mp member)

theorem isPath_none : IsPath entries none [] := ⟨[], .root, rfl⟩

theorem Grown.exists_path (grown : Grown entries) (leafId : Option String) :
    ∃ path, IsPath entries leafId path := by
  cases leaf : leafId.bind (entriesById entries) with
  | none => exact ⟨[], [], by rw [leaf]; exact .root, rfl⟩
  | some entry =>
      obtain ⟨line, lineage⟩ := grown.exists_line (bind_byId_mem entry leaf)
      exact ⟨line.reverse, line, by rw [leaf]; exact lineage, rfl⟩

theorem IsPath.pathTo (isPath : IsPath entries leafId path) :
    pathTo entries (leafId.bind (entriesById entries)) = .ok path := by
  obtain ⟨line, lineage, rfl⟩ := isPath
  have visited : visitSessionAncestry (entriesById entries) (entries.length + 1)
      (leafId.bind (entriesById entries)) = .ok line :=
    visitSessionAncestry_eq_ok.mpr
      ⟨lineage, Nat.le_succ_of_le (Line.length_le lineage bind_byId_mem)⟩
  simp only [Session.pathTo, visited]
  rfl

/-- Distinct identities along a path. -/
theorem IsPath.ids_nodup (grown : Grown entries) (isPath : IsPath entries leafId path) :
    (path.map SessionEntry.id).Nodup := by
  obtain ⟨line, lineage, rfl⟩ := isPath
  have inside := Line.mem lineage bind_byId_mem
  rw [List.map_reverse, List.nodup_reverse]
  refine List.Nodup.map_on ?_ (Lineage.nodup lineage)
  intro first firstMember second secondMember same
  have found := grown.byId (inside first firstMember)
  rw [same, grown.byId (inside second secondMember)] at found
  exact (Option.some.inj found).symm

/-- The path of an appended entry extends the path of its parent. -/
theorem IsPath.append (grown : Grown entries)
    (distinct : ∀ other ∈ entries, other.id ≠ entry.id)
    (rooted : ∀ parentId, entry.parentId = some parentId → ∃ parent ∈ entries, parent.id = parentId)
    (isPath : IsPath entries entry.parentId path) :
    IsPath (entries ++ [entry]) (some entry.id) (path ++ [entry]) := by
  obtain ⟨line, lineage, rfl⟩ := isPath
  refine ⟨entry :: line, ?_, by simp⟩
  have here : (some entry.id).bind (entriesById (entries ++ [entry])) = some entry := by
    rw [Option.bind_some, entriesById_append, if_pos rfl]
  have parent : parentEntry (entriesById (entries ++ [entry])) entry =
      entry.parentId.bind (entriesById entries) := by
    unfold parentEntry
    cases following : entry.parentId with
    | none => rfl
    | some parentId =>
        obtain ⟨parent, inside, rfl⟩ := rooted parentId following
        rw [truthy_eq_some.mpr ⟨rfl, grown.named parent inside⟩, Option.bind_some,
          Option.bind_some, grown.byId_append distinct parent inside, grown.byId inside]
  rw [here]
  refine .child ?_
  rw [parent]
  exact grown.line_congr (grown.byId_append distinct) lineage bind_byId_mem

section Managers

open SessionManager (EntryDraft chain labelEntry)

variable {before after manager : SessionManager} {operation : SessionOperation}

/-- The leaf a manager moves to exists. -/
def Known (entries : List SessionEntry) (leafId : Option String) : Prop :=
  ∀ id, leafId = some id → ∃ entry ∈ entries, entry.id = id

/-- The entries of a manager have grown, its leaf is one of them and its labels are not empty. -/
structure WellFormed (manager : SessionManager) : Prop where
  grown : Grown manager.entries
  leaf : Known manager.entries manager.leafId
  labels : ∀ id label, manager.labelsById.get? id = some label → label ≠ ""

theorem wellFormed_initial : WellFormed .initial where
  grown := .fresh
  leaf := nofun
  labels := nofun

theorem Known.append (known : Known entries leafId) : Known (entries ++ [entry]) leafId := by
  intro id same
  obtain ⟨leaf, inside, named⟩ := known id same
  exact ⟨leaf, List.mem_append_left _ inside, named⟩

theorem labelEntry_ne_empty {labels : OrderedMap String String}
    (named : ∀ id label, labels.get? id = some label → label ≠ "") :
    ∀ id label, (labelEntry labels entry).get? id = some label → label ≠ "" := by
  intro id label found
  unfold labelEntry at found
  split at found
  · split at found
    next label' truth =>
      rw [OrderedMap.get?_set] at found
      split at found
      · obtain rfl := Option.some.inj found
        exact (truthy_eq_some.mp truth).2
      · exact named id label found
    · exact named id label (OrderedMap.get?_of_erase found).1
  · exact named id label found

/-- A fresh entry after a known leaf may be published. -/
structure Publishable (entries : List SessionEntry) (entry : SessionEntry) : Prop where
  /-- Its identity is not empty. -/
  named : entry.id ≠ ""
  distinct : ∀ other ∈ entries, other.id ≠ entry.id
  /-- It follows an entry or none. -/
  rooted : Known entries entry.parentId

theorem WellFormed.publish (formed : WellFormed manager)
    (publishable : Publishable manager.entries entry) : WellFormed (manager.publish env entry) where
  grown := formed.grown.append publishable.named publishable.distinct publishable.rooted
  leaf id same := ⟨entry, by simp [SessionManager.publish], Option.some.inj same⟩
  labels := labelEntry_ne_empty formed.labels

variable {parentId : Option String} {drafts : List EntryDraft}

/-- The first entry of a fresh chain may be published, and the rest stays fresh. -/
theorem publishable_of_fresh {draft : EntryDraft} (known : Known entries parentId)
    (fresh : Fresh entries ((draft :: drafts).map EntryDraft.id)) :
    Publishable entries ⟨draft.id, parentId, draft.timestamp, draft.body⟩ ∧
      Fresh (entries ++ [⟨draft.id, parentId, draft.timestamp, draft.body⟩])
        (drafts.map EntryDraft.id) := by
  obtain ⟨distinct, named, unused⟩ := fresh
  rw [List.map_cons, List.nodup_cons] at distinct
  simp only [List.map_cons, List.mem_cons, not_or] at named unused
  refine ⟨⟨fun same => named.1 same.symm, fun other member => (unused other member).1, known⟩,
    distinct.2, named.2, ?_⟩
  intro other member
  rcases List.mem_append.mp member with inside | last
  · exact (unused other inside).2
  · obtain rfl := List.mem_singleton.mp last
    exact distinct.1

theorem known_last {draft : EntryDraft} :
    Known (entries ++ [⟨draft.id, parentId, draft.timestamp, draft.body⟩]) (some draft.id) :=
  fun _ same => ⟨_, List.mem_append_right _ List.mem_cons_self, Option.some.inj same⟩

theorem WellFormed.appendEntries (formed : WellFormed manager)
    (known : Known manager.entries parentId)
    (fresh : Fresh manager.entries (drafts.map EntryDraft.id)) :
    WellFormed (manager.appendEntries env parentId drafts) := by
  induction drafts generalizing manager parentId with
  | nil => exact formed
  | cons draft drafts ih =>
      obtain ⟨publishable, rest⟩ := publishable_of_fresh known fresh
      exact ih (formed.publish publishable) known_last rest

/-- An operation appends a fresh chain after the leaf or another entry, or moves the leaf and keeps
entries and labels. -/
theorem SessionStep.effect (taken : SessionStep env before operation after) :
    (∃ parentId drafts, (Known before.entries before.leafId → Known before.entries parentId) ∧
        Fresh before.entries (drafts.map EntryDraft.id) ∧
        after = before.appendEntries env parentId drafts) ∨
      after.entries = before.entries ∧ after.labelsById = before.labelsById ∧
        (Known before.entries before.leafId → Known before.entries after.leafId) := by
  cases taken with
  | append fresh => exact Or.inl ⟨_, _, id, fresh, rfl⟩
  | appendLabelChange fresh applied =>
      simp only [SessionManager.appendLabelChange, bind_eq_ok, exists_unit, pure_eq_ok] at applied
      obtain ⟨-, rfl⟩ := applied
      exact Or.inl ⟨_, [⟨_, _, _⟩], id, fresh, rfl⟩
  | branch applied =>
      simp only [SessionManager.branch, bind_eq_ok, exists_unit, throwPlainIf_eq_ok,
        pure_eq_ok] at applied
      obtain ⟨present, rfl⟩ := applied
      refine Or.inr ⟨rfl, rfl, ?_⟩
      rintro - id ⟨⟩
      obtain ⟨entry, found⟩ := Option.ne_none_iff_exists'.mp present
      exact ⟨entry, entriesById_eq_some found⟩
  | resetLeaf => exact Or.inr ⟨rfl, rfl, by rintro - _ ⟨⟩⟩
  | branchWithSummary fresh applied =>
      simp only [SessionManager.branchWithSummary, bind_eq_ok, exists_unit, throwPlainIf_eq_ok,
        pure_eq_ok, not_and_or, not_not] at applied
      obtain ⟨present, rfl⟩ := applied
      refine Or.inl ⟨_, [⟨_, _, _⟩], ?_, fresh, rfl⟩
      rintro - id rfl
      obtain ⟨entry, found⟩ := Option.ne_none_iff_exists'.mp (present.resolve_left (by rintro ⟨⟩))
      exact ⟨entry, entriesById_eq_some found⟩
  | buildSessionContext applied =>
      unfold SessionManager.buildSessionContext at applied
      split at applied
      · obtain ⟨-, rfl⟩ := Prod.mk.inj (Except.ok.inj applied)
        exact Or.inr ⟨rfl, rfl, id⟩
      · simp only [bind_eq_ok, pure_eq_ok] at applied
        obtain ⟨built, -, same⟩ := applied
        obtain ⟨-, rfl⟩ := Prod.mk.inj same
        exact Or.inr ⟨rfl, rfl, id⟩

/-- Every operation keeps a manager well formed. -/
theorem WellFormed.step (formed : WellFormed before) (taken : SessionStep env before operation after) :
    WellFormed after := by
  rcases taken.effect with ⟨parentId, drafts, known, fresh, rfl⟩ | ⟨entries, labels, known⟩
  · exact formed.appendEntries (known formed.leaf) fresh
  · exact ⟨entries ▸ formed.grown, entries ▸ known formed.leaf, labels ▸ formed.labels⟩

/-- The operations of a session from the fresh one, each with the manager before it. -/
abbrev SessionRun (env : Platform) (history : List (SessionManager × SessionOperation))
    (manager : SessionManager) : Prop :=
  Execution (SessionStep env) .initial history manager

/-- Every manager that a session reaches is well formed. -/
theorem wellFormed_of_run {history : List (SessionManager × SessionOperation)}
    (run : SessionRun env history manager) : WellFormed manager :=
  run.preserves WellFormed wellFormed_initial fun formed taken => formed.step taken

theorem truthy_of_known (named : ∀ entry ∈ entries, entry.id ≠ "")
    (known : Known entries leafId) : truthy leafId = leafId := by
  cases leafId with
  | none => rfl
  | some id =>
      obtain ⟨entry, inside, rfl⟩ := known id rfl
      exact truthy_eq_some.mpr ⟨rfl, named entry inside⟩

/-- The context of a leaf is the context of its path. -/
theorem buildSessionContext_eq (named : ∀ entry ∈ entries, entry.id ≠ "")
    (distinct : (entries.map SessionEntry.id).Nodup) (known : Known entries leafId)
    (isPath : IsPath entries leafId path) :
    buildSessionContext env entries leafId = pathContext env path := by
  cases leafId with
  | none =>
      obtain rfl := isPath.unique isPath_none
      rfl
  | some id =>
      obtain ⟨leaf, inside, rfl⟩ := known id rfl
      have found := entriesById_of_mem distinct inside
      have walked := isPath.pathTo
      rw [Option.bind_some, found] at walked
      have branch : branchPath entries (some leaf.id) = .ok (some path) := by
        simp [branchPath, truthy_eq_some.mpr ⟨rfl, named leaf inside⟩, found, walked]
      simp only [buildSessionContext, branch]
      rfl

/-- The branch of a known entry is its path. -/
theorem WellFormed.getBranch {fromId : Option String} (formed : WellFormed manager)
    (known : Known manager.entries (fromId <|> manager.leafId))
    (isPath : IsPath manager.entries (fromId <|> manager.leafId) path) :
    manager.getBranch fromId = .ok path := by
  unfold SessionManager.getBranch SessionManager.byId
  rw [truthy_of_known formed.grown.named known]
  exact isPath.pathTo

/-- A platform without dates and digests. -/
def plainPlatform : Platform where
  dateParse _ := none
  toISOString _ := ""
  sha256 text := text
  stringify _ := ""
  parseUrl _ := none

def givenDraft (id : String) (body : EntryBody) : EntryDraft :=
  { id, timestamp := "2026-01-01T00:00:00.000Z", body }

def userMessage (text : String) : EntryBody := .message (.user (.str text) 0) false none

def goalRecord (text : String) : EntryBody :=
  .customMessage "goal" (.str text) false (some (.obj [("superseding", .bool true)]))

def keptTailCheckpoint (firstKeptEntryId : String) : EntryBody :=
  .compaction
    { summary := "Summary", firstKeptEntryId, tokensBefore := 0, retention := none
      coveredThroughEntryId := none, summarizedGapEntryIds := none, scopeStartEntryId := none
      details := none }

end Managers

end PiAdaptative.Session
