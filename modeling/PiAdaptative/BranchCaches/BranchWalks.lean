import PiAdaptative.BranchCaches.CachedManager

/-!
# Walks to a cached leaf

A walk that stops at a cached leaf and reuses what was remembered there gives what the whole walk
gives.  Appends leave the walks of earlier leaves alone.
-/

namespace PiAdaptative.BranchCaches

open Session

variable {entries line : List SessionEntry} {entry : SessionEntry} {leafId : Option String}

/-- Entries that `_buildIndex` accepts: each has an identity of its own and a line. -/
structure Linked (entries : List SessionEntry) : Prop where
  named : ∀ entry ∈ entries, entry.id ≠ ""
  distinct : (entries.map SessionEntry.id).Nodup
  lines : ∀ entry ∈ entries, ∃ line, Line entries (some entry) line

theorem linked_nil : Linked [] where
  named := by simp
  distinct := List.nodup_nil
  lines := by simp

/-- A new id that no entry misses leaves the parents of the entries alone. -/
theorem parentEntry_append {other : SessionEntry} (missed : other.parentId ≠ some entry.id) :
    parentEntry (entriesById (entries ++ [entry])) other = parentEntry (entriesById entries) other := by
  unfold parentEntry
  cases named : truthy other.parentId with
  | none => rfl
  | some parentId =>
      have different : entry.id ≠ parentId := fun same =>
        missed (same ▸ (truthy_eq_some.mp named).1)
      rw [Option.bind_some, Option.bind_some, entriesById_append, if_neg different]

variable {start : Option SessionEntry}

theorem line_append (missed : ∀ other ∈ entries, other.parentId ≠ some entry.id)
    (first : ∀ other, start = some other → other ∈ entries) (held : Line entries start line) :
    Line (entries ++ [entry]) start line :=
  Lineage.congr held fun _ member => parentEntry_append (missed _ (Line.mem held first _ member))

theorem Linked.append (linked : Linked entries) (named : entry.id ≠ "")
    (fresh : ∀ other ∈ entries, other.id ≠ entry.id)
    (follows : ∀ parentId, entry.parentId = some parentId → ∃ parent ∈ entries, parent.id = parentId)
    (missed : ∀ other ∈ entries, other.parentId ≠ some entry.id) : Linked (entries ++ [entry]) := by
  have earlier : ∀ other ∈ entries, ∃ line, Line (entries ++ [entry]) (some other) line := by
    intro other member
    obtain ⟨line, held⟩ := linked.lines other member
    exact ⟨line, line_append missed (by rintro _ ⟨⟩; exact member) held⟩
  refine ⟨?_, ?_, ?_⟩
  · rw [List.forall_mem_append, List.forall_mem_singleton]
    exact ⟨linked.named, named⟩
  · rw [List.map_append, List.nodup_append]
    refine ⟨linked.distinct, List.nodup_singleton _, ?_⟩
    rintro id inside other last rfl
    obtain ⟨earlier, member, same⟩ := List.mem_map.mp inside
    rw [List.map_singleton, List.mem_singleton] at last
    exact fresh earlier member (same.trans last)
  · rw [List.forall_mem_append, List.forall_mem_singleton]
    refine ⟨earlier, ?_⟩
    cases parent : parentEntry (entriesById (entries ++ [entry])) entry with
    | none => exact ⟨[entry], .child (by rw [parent]; exact .root)⟩
    | some older =>
        obtain ⟨inside, following⟩ := parentEntry_eq_some parent
        have member : older ∈ entries := by
          rcases List.mem_append.mp inside with before | last
          · exact before
          · obtain rfl := List.mem_singleton.mp last
            obtain ⟨real, present, same⟩ := follows _ following
            exact absurd same (fresh real present)
        obtain ⟨line, held⟩ := earlier older member
        exact ⟨entry :: line, .child (by rw [parent]; exact held)⟩

theorem leafEntry_mem : ∀ entry, leafEntry entries leafId = some entry → entry ∈ entries := by
  intro entry found
  obtain ⟨id, -, present⟩ := Option.bind_eq_some_iff.mp found
  exact (entriesById_eq_some present).1

theorem Linked.leafEntry (linked : Linked entries) (member : entry ∈ entries) :
    leafEntry entries (some entry.id) = some entry := by
  rw [BranchCaches.leafEntry, truthy_eq_some.mpr ⟨rfl, linked.named entry member⟩,
    Option.bind_some, entriesById_of_mem linked.distinct member]

def LeafLine (entries : List SessionEntry) (leafId : Option String) (line : List SessionEntry) :
    Prop :=
  Line entries (leafEntry entries leafId) line

theorem Linked.exists_line (linked : Linked entries)
    (first : ∀ other, start = some other → other ∈ entries) : ∃ line, Line entries start line := by
  cases start with
  | none => exact ⟨[], .root⟩
  | some entry => exact linked.lines entry (first entry rfl)

theorem LeafLine.append (held : LeafLine entries leafId line)
    (fresh : ∀ other ∈ entries, other.id ≠ entry.id)
    (missed : ∀ other ∈ entries, other.parentId ≠ some entry.id) (known : Known entries leafId) :
    LeafLine (entries ++ [entry]) leafId line := by
  have same : leafEntry (entries ++ [entry]) leafId = leafEntry entries leafId := by
    unfold leafEntry
    cases named : truthy leafId with
    | none => rfl
    | some id =>
        obtain ⟨leaf, member, rfl⟩ := known id (truthy_eq_some.mp named).1
        rw [Option.bind_some, Option.bind_some, entriesById_append,
          if_neg (fresh leaf member).symm]
  rw [LeafLine, same]
  exact line_append missed leafEntry_mem held

/-- Where a branch meets a leaf, the rest of the branch is the branch of that leaf. -/
theorem Linked.leafLine_suffix (linked : Linked entries) (held : Line entries start line)
    (first : ∀ other, start = some other → other ∈ entries)
    {newer older cached : List SessionEntry} (split : line = newer ++ entry :: older)
    (leaf : LeafLine entries (some entry.id) cached) : cached = entry :: older := by
  have member : entry ∈ line := by
    rw [split]
    exact List.mem_append_right _ List.mem_cons_self
  rw [LeafLine, linked.leafEntry (Line.mem held first entry member)] at leaf
  subst split
  exact leaf.unique (.child held.of_append)

/-- `searchLatest` on a line. -/
def searchLine (customType : String) (cachedLeafId : Option String) : List SessionEntry → Search
  | [] => .nothing
  | entry :: older =>
      if cachedLeafId = some entry.id then .cachedLeaf
      else if isCustom customType entry = true then .entry entry
      else searchLine customType cachedLeafId older

/-- `collectCustom` on a line. -/
def collectLine (customTypes : List String) (cachedLeafId : Option String) :
    List SessionEntry → List SessionEntry × Bool
  | [] => ([], false)
  | entry :: older =>
      if cachedLeafId = some entry.id then ([], true)
      else
        let rest := collectLine customTypes cachedLeafId older
        (if isCustomOf customTypes entry then entry :: rest.1 else rest.1, rest.2)

variable {cachedLeafId : Option String}

theorem searchLatest_eq {lookup : Lookup} {customType : String}
    (held : Lineage (parentEntry lookup) start line) {bound : Nat} (short : line.length ≤ bound) :
    searchLatest lookup customType cachedLeafId bound start =
      .ok (searchLine customType cachedLeafId line) := by
  induction held generalizing bound with
  | root => cases bound <;> rfl
  | @child node older _ ih =>
      obtain ⟨remaining, rfl⟩ := Nat.exists_eq_add_one_of_ne_zero
        (Nat.ne_of_gt (Nat.lt_of_lt_of_le (Nat.succ_pos _) short))
      unfold searchLatest searchLine
      rw [ih (Nat.le_of_succ_le_succ short)]
      split
      · rfl
      · split <;> rfl

variable {customTypes : List String}

theorem collectCustom_eq {lookup : Lookup} (held : Lineage (parentEntry lookup) start line)
    {bound : Nat} (short : line.length ≤ bound) :
    collectCustom lookup customTypes cachedLeafId bound start =
      .ok (collectLine customTypes cachedLeafId line) := by
  induction held generalizing bound with
  | root => cases bound <;> rfl
  | @child node older _ ih =>
      obtain ⟨remaining, rfl⟩ := Nat.exists_eq_add_one_of_ne_zero
        (Nat.ne_of_gt (Nat.lt_of_lt_of_le (Nat.succ_pos _) short))
      unfold collectCustom collectLine
      rw [ih (Nat.le_of_succ_le_succ short)]
      split <;> rfl

/-- The entry a search gives, reusing what is remembered at the cached leaf. -/
def Search.result (cached : Option SessionEntry) : Search → Option SessionEntry
  | .entry entry => some entry
  | .cachedLeaf => cached
  | .nothing => none

theorem searchLine_result {customType : String}
    {cached : Option SessionEntry}
    (reuses : ∀ newer entry older, line = newer ++ entry :: older →
      cachedLeafId = some entry.id → cached = (entry :: older).find? (isCustom customType)) :
    (searchLine customType cachedLeafId line).result cached =
      line.find? (isCustom customType) := by
  induction line with
  | nil => rfl
  | cons entry older ih =>
      unfold searchLine
      split
      · next met => exact reuses [] entry older rfl met
      · rw [List.find?_cons]
        split
        · next custom => rw [custom]; rfl
        · next other =>
            rw [Bool.not_eq_true] at other
            rw [other]
            exact ih fun newer next rest same met =>
              reuses (entry :: newer) next rest (by rw [same]; rfl) met

theorem collectLine_result
    {cached : List SessionEntry}
    (reuses : ∀ newer entry older, line = newer ++ entry :: older → cachedLeafId = some entry.id →
      cached = ((entry :: older).filter (isCustomOf customTypes)).reverse) :
    (if (collectLine customTypes cachedLeafId line).2 = true then cached else []) ++
        (collectLine customTypes cachedLeafId line).1.reverse =
      (line.filter (isCustomOf customTypes)).reverse := by
  induction line with
  | nil => rfl
  | cons entry older ih =>
      unfold collectLine
      split
      · next met =>
          rw [← reuses [] entry older rfl met]
          simp
      · have rest := ih fun newer next rest same met =>
          reuses (entry :: newer) next rest (by rw [same]; rfl) met
        dsimp only
        rw [List.filter_cons]
        by_cases custom : isCustomOf customTypes entry = true
        · rw [if_pos custom, if_pos custom, List.reverse_cons, List.reverse_cons, ← rest,
            List.append_assoc]
        · rw [if_neg custom, if_neg custom]
          exact rest

end PiAdaptative.BranchCaches
