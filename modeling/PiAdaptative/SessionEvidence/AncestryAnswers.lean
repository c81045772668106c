import Mathlib.Algebra.Order.BigOperators.Group.List
import Mathlib.Algebra.Order.Ring.Rat
import PiAdaptative.Session.Branches
import PiAdaptative.SessionEvidence.EvidenceLineages

/-!
# Ancestry answers

After any additions in any order, the index answers ancestry and evidence queries as the parent
chains of its entries do.
-/

namespace PiAdaptative.SessionEvidence

open Session JumpTables SessionEntryEvidenceIndex

variable {env : Platform} {added : List SessionEntry} {index next : SessionEntryEvidenceIndex}

/-- How many keys an entry has. -/
def keyTotal (env : Platform) (entry : SessionEntry) : Nat :=
  match evidenceKeys env entry with
  | .ok keys => keys.length
  | .error _ => 0

/-- Entries that an index can hold together. -/
structure Admissible (env : Platform) (entries : List SessionEntry) : Prop where
  ids : ∀ entry ∈ entries, entry.id ≠ "" ∧ utf16Length entry.id ≤ MAX_SESSION_EVIDENCE_ID_CHARS
  distinct : (idsOf entries).Nodup
  readable : ∀ entry ∈ entries, ∃ keys, evidenceKeys env entry = .ok keys
  bounded : entries.length ≤ MAX_SESSION_EVIDENCE_ENTRIES
  indexed : (entries.map (keyTotal env)).sum ≤ MAX_INDEXED_EVIDENCE_KEYS

theorem Admissible.sublist {entries fewer : List SessionEntry}
    (admissible : Admissible env entries) (within : fewer.Sublist entries) :
    Admissible env fewer where
  ids entry member := admissible.ids entry (within.subset member)
  distinct := (within.map SessionEntry.id).nodup admissible.distinct
  readable entry member := admissible.readable entry (within.subset member)
  bounded := within.length_le.trans admissible.bounded
  indexed := (List.Sublist.sum_le_sum (within.map (keyTotal env)) fun _ _ => Nat.zero_le _).trans
    admissible.indexed

variable {entries other : List SessionEntry}

theorem Admissible.perm (admissible : Admissible env entries) (same : other.Perm entries) :
    Admissible env other where
  ids entry member := admissible.ids entry (same.mem_iff.mp member)
  distinct := ((same.map SessionEntry.id).nodup_iff).mpr admissible.distinct
  readable entry member := admissible.readable entry (same.mem_iff.mp member)
  bounded := same.length_eq ▸ admissible.bounded
  indexed := (same.map (keyTotal env)).sum_eq ▸ admissible.indexed

/-- An index after the additions of some entries. -/
structure Holds (env : Platform) (added : List SessionEntry) (index : SessionEntryEvidenceIndex) :
    Prop where
  follows : Follows env added index []
  admissible : Admissible env added
  size : index.entries.size = added.length
  keyCount : index.keyCount = (added.map (keyTotal env)).sum

theorem holds_empty (env : Platform) : Holds env [] .empty where
  follows :=
    { distinct := List.nodup_nil
      reads := (by simp)
      only := by simp [SessionEntryEvidenceIndex.empty]
      attached := fun id lineage found => (by cases found)
      early := by simp
      waits := fun parentId id listed => (by cases listed)
      ready := by simp }
  admissible :=
    { ids := by simp
      distinct := List.nodup_nil
      readable := by simp
      bounded := Nat.zero_le _
      indexed := Nat.zero_le _ }
  size := rfl
  keyCount := rfl

theorem attachEntry_counts (index : SessionEntryEvidenceIndex) (id : String) :
    (index.attachEntry id).entries.size = index.entries.size ∧
      (index.attachEntry id).keyCount = index.keyCount := by
  unfold attachEntry
  split
  · exact ⟨rfl, rfl⟩
  · next entry found =>
      exact ⟨OrderedMap.size_set_of_has _ (OrderedMap.has_eq_true.mpr ⟨entry, found⟩), rfl⟩

theorem attachPending_counts (index : SessionEntryEvidenceIndex) (pending : List String) :
    (index.attachPending pending).entries.size = index.entries.size ∧
      (index.attachPending pending).keyCount = index.keyCount := by
  induction index, pending using SessionEntryEvidenceIndex.attachPending.induct with
  | case1 index =>
      rw [SessionEntryEvidenceIndex.attachPending]
      exact ⟨rfl, rfl⟩
  | case2 index id pending ih =>
      rw [SessionEntryEvidenceIndex.attachPending]
      exact ⟨ih.1.trans (attachEntry_counts index id).1, ih.2.trans (attachEntry_counts index id).2⟩

theorem place_counts (index : SessionEntryEvidenceIndex) (entry : SessionEntry) :
    (index.place entry).entries.size = index.entries.size ∧
      (index.place entry).keyCount = index.keyCount := by
  unfold place
  split
  · exact ⟨rfl, rfl⟩
  · exact attachPending_counts index _
  · split
    · exact ⟨rfl, rfl⟩
    · exact attachPending_counts index _

variable {entry : SessionEntry} {keys : List EvidenceKey}

/-- An entry that was inserted, and that is pending or waits, keeps the index in step. -/
theorem Follows.insert {pending : List String}
    (follows : Follows env added index []) (fresh : index.entries.has entry.id = false)
    (read : evidenceKeys env entry = .ok keys)
    (stored : next.entries = (index.insert entry keys).entries)
    {awaits : String → Prop} (children : ∀ parentId id, id ∈ next.children parentId ↔
      id ∈ index.children parentId ∨ id = entry.id ∧ awaits parentId)
    (awaited : ∀ parentId, awaits parentId →
      sessionEvidenceParentId entry = some (some parentId))
    (placed : ∀ parent, sessionEvidenceParentId entry = some parent → entry.id ∈ pending ∨
      ∃ parentId, parent = some parentId ∧ index.lineage? parentId = none ∧ awaits parentId)
    (ready : ∀ id ∈ pending, id = entry.id ∧ ∃ parent,
      sessionEvidenceParentId entry = some parent ∧
        ∀ parentId, parent = some parentId → (index.lineage? parentId).isSome = true) :
    Follows env (added ++ [entry]) next pending := by
  have absent : index.entries.get? entry.id = none := OrderedMap.has_eq_false.mp fresh
  have outside : entry.id ∉ idsOf added := by
    intro member
    obtain ⟨other, present, same⟩ := List.mem_map.mp member
    obtain ⟨indexed, found, -⟩ := follows.reads other present
    rw [same, absent] at found
    cases found
  have found : ∀ id, next.entries.get? id = if id = entry.id then
      some { parentId := sessionEvidenceParentId entry, keys, lineage := none }
      else index.entries.get? id := by
    rw [stored]
    exact fun id => OrderedMap.get?_set _ _ _ _
  have lineages : ∀ id, next.lineage? id = index.lineage? id := by
    intro id
    unfold lineage?
    rw [found]
    split
    · next same => rw [same, absent]; rfl
    · rfl
  have earlier : ∀ other ∈ added, other.id ≠ entry.id := fun other present same =>
    outside (same ▸ List.mem_map_of_mem present)
  refine ⟨?_, fun other present => ?_, fun id present => ?_, fun id lineage attached => ?_,
    fun other present parent link missing => ?_, fun parentId id listed => ?_,
    fun id listed => ?_⟩
  · rw [idsOf, List.map_append]
    refine List.nodup_append.mpr ⟨follows.distinct, List.nodup_singleton _, ?_⟩
    rintro id inside other last rfl
    rw [List.map_singleton, List.mem_singleton] at last
    exact outside (last ▸ inside)
  · rcases List.mem_append.mp present with before | last
    · rw [found, if_neg (earlier other before)]
      exact follows.reads other before
    · obtain rfl := List.mem_singleton.mp last
      rw [found, if_pos rfl]
      exact ⟨_, rfl, rfl, read⟩
  · rw [idsOf, List.map_append, List.mem_append]
    rw [OrderedMap.has, found] at present
    split at present
    · next same => exact .inr (by simp [same])
    · exact .inl (follows.only id present)
  · rw [lineages] at attached
    obtain ⟨chain, held, described, rest⟩ := follows.attached id lineage attached
    exact ⟨chain, held.mono fun other present => List.mem_append_left _ present, described,
      fun other onChain => by rw [lineages]; exact rest other onChain⟩
  · rcases List.mem_append.mp present with before | last
    · rw [lineages] at missing
      rcases follows.early other before parent link missing with inPending | ⟨parentId, same, none,
        waiting⟩
      · cases inPending
      · exact .inr ⟨parentId, same, by rw [lineages, none],
          (children parentId other.id).mpr (.inl waiting)⟩
    · obtain rfl := List.mem_singleton.mp last
      rcases placed parent link with inPending | ⟨parentId, same, none, waits⟩
      · exact .inl inPending
      · exact .inr ⟨parentId, same, by rw [lineages, none],
          (children parentId other.id).mpr (.inr ⟨rfl, waits⟩)⟩
  · rcases (children parentId id).mp listed with before | ⟨rfl, waits⟩
    · obtain ⟨other, present, rest⟩ := follows.waits parentId id before
      exact ⟨other, List.mem_append_left _ present, rest⟩
    · exact ⟨entry, List.mem_append_right _ (List.mem_singleton.mpr rfl), rfl,
        awaited parentId waits⟩
  · obtain ⟨rfl, parent, link, above⟩ := ready id listed
    refine ⟨entry, List.mem_append_right _ (List.mem_singleton.mpr rfl), rfl, parent, link, ?_⟩
    intro parentId same
    rw [lineages]
    exact above parentId same

/-- An entry is placed where its parent's lineage lets it. -/
theorem Follows.place (follows : Follows env added index [])
    (fresh : index.entries.has entry.id = false) (read : evidenceKeys env entry = .ok keys) :
    Follows env (added ++ [entry]) ((index.insert entry keys).place entry) [] := by
  have absent : index.entries.get? entry.id = none := OrderedMap.has_eq_false.mp fresh
  have quiet : ∀ parentId id, id ∈ (index.insert entry keys).children parentId ↔
      id ∈ index.children parentId ∨ id = entry.id ∧ False := by
    simp [SessionEntryEvidenceIndex.children, SessionEntryEvidenceIndex.insert]
  have lineages : ∀ id, (index.insert entry keys).lineage? id = index.lineage? id := by
    intro id
    unfold lineage? SessionEntryEvidenceIndex.insert
    rw [OrderedMap.get?_set]
    split
    · next same => rw [same, absent]; rfl
    · rfl
  unfold SessionEntryEvidenceIndex.place
  split
  · next link =>
      exact follows.insert fresh read rfl quiet (fun _ => False.elim)
        (fun parent other => by rw [link] at other; cases other) (fun id listed => by cases listed)
  · next link =>
      refine (follows.insert fresh read rfl quiet (fun _ => False.elim)
        (fun parent _ => .inl (List.mem_singleton.mpr rfl)) (fun id listed => ?_)).attachPending
      exact ⟨List.mem_singleton.mp listed, none, link, fun parentId same => by cases same⟩
  · next parentId link =>
      split
      · next missing =>
          rw [Option.isNone_iff_eq_none, lineages] at missing
          refine follows.insert fresh read rfl (fun other id => ?_)
            (fun other (same : other = parentId) => by rw [link, same]) (fun parent sameLink => ?_)
            (fun id listed => by cases listed)
          · unfold awaitParent SessionEntryEvidenceIndex.children
            rw [OrderedMap.get?_set]
            split
            · next same => simp [same, SessionEntryEvidenceIndex.insert]
            · next different => simp [different, SessionEntryEvidenceIndex.insert]
          · rw [link] at sameLink
            exact .inr ⟨parentId, (Option.some.inj sameLink).symm, missing, rfl⟩
      · next present =>
          refine (follows.insert fresh read rfl quiet (fun _ => False.elim)
            (fun parent _ => .inl (List.mem_singleton.mpr rfl)) (fun id listed => ?_)).attachPending
          refine ⟨List.mem_singleton.mp listed, some parentId, link, fun other same => ?_⟩
          cases same
          rw [lineages, Option.isNone_iff_eq_none] at present
          exact Option.isSome_iff_ne_none.mpr present

/-- An entry that is admissible beside those of the index is added, and no other. -/
theorem Holds.add (holds : Holds env added index) (entry : SessionEntry) :
    (∃ next, index.add env entry = .ok next) ↔ Admissible env (added ++ [entry]) := by
  have present : index.entries.has entry.id = true ↔ entry.id ∈ idsOf added := by
    refine ⟨holds.follows.only entry.id, fun member => ?_⟩
    obtain ⟨other, inside, same⟩ := List.mem_map.mp member
    obtain ⟨indexed, found, -⟩ := holds.follows.reads other inside
    exact OrderedMap.has_eq_true.mpr ⟨indexed, same ▸ found⟩
  simp only [SessionEntryEvidenceIndex.add, bind_eq_ok, throwPlainIf_eq_ok, exists_unit,
    pure_eq_ok]
  constructor
  · rintro ⟨next, valid, fresh, room, keys, read, few, -⟩
    rw [not_or] at valid
    rw [present] at fresh
    rw [holds.size] at room
    rw [holds.keyCount] at few
    have total : keyTotal env entry = keys.length := by rw [keyTotal, read]
    refine ⟨fun other member => ?_, ?_, fun other member => ?_, ?_, ?_⟩
    · rcases List.mem_append.mp member with before | last
      · exact holds.admissible.ids other before
      · obtain rfl := List.mem_singleton.mp last
        exact ⟨valid.1, Nat.le_of_not_lt valid.2⟩
    · rw [idsOf, List.map_append]
      refine List.nodup_append.mpr ⟨holds.admissible.distinct, List.nodup_singleton _, ?_⟩
      rintro id inside other last rfl
      rw [List.map_singleton, List.mem_singleton] at last
      exact fresh (last ▸ inside)
    · rcases List.mem_append.mp member with before | last
      · exact holds.admissible.readable other before
      · obtain rfl := List.mem_singleton.mp last
        exact ⟨keys, read⟩
    · rw [List.length_append, List.length_singleton]
      omega
    · rw [List.map_append, List.sum_append, List.map_singleton, List.sum_singleton, total]
      exact Nat.le_of_not_lt few
  · intro admissible
    have member : entry ∈ added ++ [entry] := List.mem_append_right _ (List.mem_singleton.mpr rfl)
    obtain ⟨keys, read⟩ := admissible.readable entry member
    have total : keyTotal env entry = keys.length := by rw [keyTotal, read]
    have valid := admissible.ids entry member
    have distinct := admissible.distinct
    have bounded := admissible.bounded
    have indexed := admissible.indexed
    rw [idsOf, List.map_append, List.nodup_append] at distinct
    rw [List.length_append, List.length_singleton] at bounded
    rw [List.map_append, List.sum_append, List.map_singleton, List.sum_singleton, total] at indexed
    refine ⟨_, ?_, ?_, ?_, keys, read, ?_, rfl⟩
    · rw [not_or]
      exact ⟨valid.1, Nat.not_lt.mpr valid.2⟩
    · rw [present]
      exact fun inside => distinct.2.2 _ inside _ (by simp) rfl
    · rw [holds.size]
      omega
    · rw [holds.keyCount]
      exact Nat.not_lt.mpr indexed

theorem Holds.step (holds : Holds env added index) (accepted : index.add env entry = .ok next) :
    Holds env (added ++ [entry]) next := by
  have admissible := (holds.add entry).mp ⟨next, accepted⟩
  simp only [SessionEntryEvidenceIndex.add, bind_eq_ok, throwPlainIf_eq_ok, exists_unit,
    pure_eq_ok] at accepted
  obtain ⟨-, fresh, -, keys, read, -, rfl⟩ := accepted
  rw [Bool.not_eq_true] at fresh
  obtain ⟨size, count⟩ := place_counts (index.insert entry keys) entry
  refine ⟨holds.follows.place fresh read, admissible, size.trans ?_, count.trans ?_⟩
  · rw [List.length_append, List.length_singleton, ← holds.size]
    exact OrderedMap.size_set_of_not_has _ fresh
  · rw [List.map_append, List.sum_append, List.map_singleton, List.sum_singleton, ← holds.keyCount,
      keyTotal, read]
    rfl

/-- Additions succeed exactly where all the entries are admissible together. -/
theorem Holds.run (holds : Holds env added index) (entries : List SessionEntry) :
    (∀ next, entries.foldlM (SessionEntryEvidenceIndex.add env) index = .ok next →
      Holds env (added ++ entries) next) ∧
      (Admissible env (added ++ entries) →
        ∃ next, entries.foldlM (SessionEntryEvidenceIndex.add env) index = .ok next) := by
  induction entries generalizing added index with
  | nil =>
      rw [List.append_nil]
      refine ⟨fun next same => ?_, fun _ => ⟨index, rfl⟩⟩
      cases same
      exact holds
  | cons entry entries ih =>
      rw [List.append_cons added entry entries]
      refine ⟨fun next built => ?_, fun admissible => ?_⟩
      · obtain ⟨middle, first, rest⟩ := bind_eq_ok.mp built
        exact (ih (holds.step first)).1 next rest
      · obtain ⟨middle, first⟩ := (holds.add entry).mpr
          (admissible.sublist (List.sublist_append_left _ _))
        obtain ⟨next, rest⟩ := (ih (holds.step first)).2 admissible
        exact ⟨next, bind_eq_ok.mpr ⟨middle, first, rest⟩⟩

variable {chain : List SessionEntry} {id : String}

/-- An id with a complete chain has a lineage. -/
theorem Follows.complete (follows : Follows env added index [])
    (held : ParentChain added id chain) : ∃ lineage, index.lineage? id = some lineage := by
  induction held with
  | @root entry member top =>
      refine Option.ne_none_iff_exists'.mp fun missing => ?_
      rcases follows.early entry member none (sessionEvidenceParentId_root.mpr top) missing with
        inPending | ⟨_, same, -⟩
      · cases inPending
      · cases same
  | @child entry parentId older member link _ ih =>
      refine Option.ne_none_iff_exists'.mp fun missing => ?_
      rcases follows.early entry member _ link missing with inPending | ⟨_, same, none, -⟩
      · cases inPending
      · cases same
        obtain ⟨lineage, found⟩ := ih
        rw [none] at found
        cases found

theorem Follows.describes (follows : Follows env added index [])
    (held : ParentChain added id chain) :
    ∃ lineage, index.requireEntry id = .ok lineage ∧ Describes env chain lineage ∧
      TablesFrom index.ancestors? (idsOf chain) 0 := by
  obtain ⟨lineage, found⟩ := follows.complete held
  obtain ⟨other, otherHeld, described, lineages⟩ := follows.attached id lineage found
  obtain rfl := held.unique follows.distinct otherHeld
  exact ⟨lineage, by rw [requireEntry, found], described, follows.tables held lineages⟩

/-- The error of a query about an id without a usable lineage. -/
def brokenAncestry : RuntimeError :=
  .plain "Session evidence ancestry has a missing entry, malformed link or cycle."

theorem Follows.requireEntry_broken (follows : Follows env added index [])
    (broken : BrokenChain added id) : index.requireEntry id = .error brokenAncestry := by
  unfold requireEntry
  cases found : index.lineage? id with
  | none => rfl
  | some lineage =>
      obtain ⟨chain, held, -⟩ := follows.attached id lineage found
      exact absurd ⟨chain, held⟩ ((brokenChain_iff follows.distinct id).mp broken)

theorem Follows.isAncestor (follows : Follows env added index []) {ancestorId descendantId : String}
    {older chain : List SessionEntry} (above : ParentChain added ancestorId older)
    (held : ParentChain added descendantId chain) :
    index.isAncestor ancestorId descendantId = .ok (decide (ancestorId ∈ idsOf chain)) := by
  obtain ⟨ancestor, ancestorRead, ancestorDescribed, -⟩ := follows.describes above
  obtain ⟨descendant, descendantRead, described, tables⟩ := follows.describes held
  have within : ancestorId ∈ idsOf chain → ancestor.root = descendant.root ∧
      ancestor.depth ≤ descendant.depth ∧
        (idsOf chain)[descendant.depth - ancestor.depth]? = some ancestorId := by
    intro member
    obtain ⟨distance, here⟩ := List.mem_iff_getElem?.mp member
    have named := here
    rw [idsOf, List.getElem?_map, Option.map_eq_some_iff] at here
    obtain ⟨entry, onChain, rfl⟩ := here
    obtain rfl := above.unique follows.distinct (held.drop onChain)
    have depth := ancestorDescribed.depth
    rw [List.length_drop, ← described.depth] at depth
    refine ⟨?_, by omega, ?_⟩
    · have last := ancestorDescribed.root
      rw [idsOf, List.map_drop, List.getLast?_drop, if_neg (by
        rw [List.length_map, ← described.depth]; omega)] at last
      exact Option.some.inj (last.symm.trans described.root)
    · rwa [show descendant.depth - ancestor.depth = distance by omega]
  unfold SessionEntryEvidenceIndex.isAncestor
  rw [ancestorRead, descendantRead]
  simp only [bind, Except.bind, pure, Except.pure]
  split
  · next apart =>
      have outside : ancestorId ∉ idsOf chain := fun member => by
        obtain ⟨root, depth, -⟩ := within member
        rcases apart with different | deeper
        · exact different root
        · omega
      rw [decide_eq_false outside]
  · next close =>
      have length : (idsOf chain).length = descendant.depth + 1 := by
        rw [idsOf, List.length_map, described.depth]
      have inside : descendant.depth - ancestor.depth < (idsOf chain).length := by omega
      have reached : climb index.ancestors? (descendant.depth - ancestor.depth) 0 descendantId =
          (idsOf chain)[0 + (descendant.depth - ancestor.depth) * 2 ^ 0]? :=
        climb_eq tables held.head? (by omega)
      rw [Nat.pow_zero, Nat.mul_one, Nat.zero_add] at reached
      rw [reached, List.getElem?_eq_getElem inside]
      dsimp only
      congr 1
      rw [decide_eq_decide]
      constructor
      · intro same
        rw [same]
        exact List.getElem_mem inside
      · intro member
        have found := (within member).2.2
        rw [List.getElem?_eq_getElem inside] at found
        exact (Option.some.inj found).symm

theorem filter_hasKey {entries chain : List SessionEntry}
    (readable : ∀ entry ∈ entries, ∃ keys, evidenceKeys env entry = .ok keys)
    (within : ∀ entry ∈ chain, entry ∈ entries) (query : ParentInputEvidenceQuery) :
    chain.filter (hasKey env (evidenceKey query)) = chain.filter (entryAnswers env query) := by
  refine List.filter_congr fun entry member => ?_
  obtain ⟨keys, read⟩ := readable entry (within entry member)
  rw [Bool.eq_iff_iff, ← evidenceKey_mem_evidenceKeys read, hasKey, read, List.contains_iff_mem]

/-- The limit of a query, where it is allowed. -/
structure Limits (requested : Option Rat) (limit : Nat) : Prop where
  same : requested.getD MAX_EVIDENCE_RESULTS = limit
  bounds : 1 ≤ limit ∧ limit ≤ MAX_EVIDENCE_RESULTS

theorem Limits.allowed {requested : Option Rat} {limit : Nat} (limits : Limits requested limit) :
    throwPlainIf ((requested.getD MAX_EVIDENCE_RESULTS).den ≠ 1 ∨
      requested.getD MAX_EVIDENCE_RESULTS < 1 ∨
        (MAX_EVIDENCE_RESULTS : Rat) < requested.getD MAX_EVIDENCE_RESULTS)
      "Session evidence query limit must be from 1 through 64." = .ok () := by
  rw [throwPlainIf_eq_ok, limits.same, not_or, not_or, not_not, not_lt, not_lt]
  exact ⟨Rat.den_natCast _, Nat.one_le_cast.mpr limits.bounds.1, Nat.cast_le.mpr limits.bounds.2⟩

theorem Follows.findAncestors (follows : Follows env added index [])
    (readable : ∀ entry ∈ added, ∃ keys, evidenceKeys env entry = .ok keys)
    (held : ParentChain added id chain) (query : ParentInputEvidenceQuery)
    {requested : Option Rat} {limit : Nat} (limits : Limits requested limit) :
    index.findAncestors id query requested =
      .ok ((idsOf (chain.filter (entryAnswers env query))).take limit) := by
  obtain ⟨lineage, read, described, -⟩ := follows.describes held
  unfold SessionEntryEvidenceIndex.findAncestors
  dsimp only
  rw [limits.allowed, read, limits.same, ← filter_hasKey readable held.mem query,
    ← described.evidence (evidenceKey query)]
  rfl

/-- The answers of an index are those of the parent chains. -/
structure AnswersAncestry (env : Platform) (entries : List SessionEntry)
    (index : SessionEntryEvidenceIndex) : Prop where
  isAncestor : ∀ ancestorId descendantId older chain, ParentChain entries ancestorId older →
    ParentChain entries descendantId chain →
      index.isAncestor ancestorId descendantId = .ok (decide (ancestorId ∈ idsOf chain))
  isAncestor_throws : ∀ ancestorId descendantId,
    index.isAncestor ancestorId descendantId = .error brokenAncestry ↔
      BrokenChain entries ancestorId ∨ BrokenChain entries descendantId
  findAncestors : ∀ id chain query requested limit, ParentChain entries id chain →
    Limits requested limit → index.findAncestors id query requested =
      .ok ((idsOf (chain.filter (entryAnswers env query))).take limit)
  findAncestors_throws : ∀ id query requested limit, Limits requested limit →
    (index.findAncestors id query requested = .error brokenAncestry ↔ BrokenChain entries id)
  /-- Every evidence tree is ordered and balanced. -/
  formed : ∀ id lineage, index.lineage? id = some lineage → lineage.evidence.WellFormed

variable {entries : List SessionEntry}

theorem chain_or_broken (distinct : (idsOf entries).Nodup) (id : String) :
    (∃ chain, ParentChain entries id chain) ∨ BrokenChain entries id :=
  (em _).imp_right (brokenChain_iff distinct id).mpr

theorem Holds.answers (holds : Holds env added index) : AnswersAncestry env added index where
  isAncestor ancestorId descendantId older chain above held := holds.follows.isAncestor above held
  isAncestor_throws ancestorId descendantId := by
    rcases chain_or_broken holds.follows.distinct ancestorId with ⟨older, above⟩ | broken
    · rcases chain_or_broken holds.follows.distinct descendantId with ⟨chain, held⟩ | broken
      · rw [holds.follows.isAncestor above held, brokenChain_iff holds.follows.distinct,
          brokenChain_iff holds.follows.distinct]
        simp only [reduceCtorEq, false_iff, not_or, not_not]
        exact ⟨⟨older, above⟩, ⟨chain, held⟩⟩
      · refine iff_of_true ?_ (.inr broken)
        obtain ⟨lineage, read, -⟩ := holds.follows.describes above
        rw [SessionEntryEvidenceIndex.isAncestor, read, holds.follows.requireEntry_broken broken]
        rfl
    · refine iff_of_true ?_ (.inl broken)
      rw [SessionEntryEvidenceIndex.isAncestor, holds.follows.requireEntry_broken broken]
      rfl
  findAncestors id chain query requested limit held limits :=
    holds.follows.findAncestors holds.admissible.readable held query limits
  findAncestors_throws id query requested limit limits := by
    rcases chain_or_broken holds.follows.distinct id with ⟨chain, held⟩ | broken
    · rw [holds.follows.findAncestors holds.admissible.readable held query limits,
        brokenChain_iff holds.follows.distinct]
      simp only [reduceCtorEq, false_iff, not_not]
      exact ⟨chain, held⟩
    · refine iff_of_true ?_ broken
      unfold SessionEntryEvidenceIndex.findAncestors
      dsimp only
      rw [limits.allowed, holds.follows.requireEntry_broken broken]
      rfl
  formed id lineage found := by
    obtain ⟨chain, -, described, -⟩ := holds.follows.attached id lineage found
    exact described.formed

/-- Two indexes answer every query alike. -/
structure SameAnswers (index other : SessionEntryEvidenceIndex) : Prop where
  isAncestor : ∀ ancestorId descendantId,
    index.isAncestor ancestorId descendantId = other.isAncestor ancestorId descendantId
  findAncestors : ∀ id query requested,
    index.findAncestors id query requested = other.findAncestors id query requested

/-- A chain does not depend on the order of the entries. -/
theorem ParentChain.perm (same : other.Perm entries) :
    ParentChain other id chain ↔ ParentChain entries id chain :=
  ⟨fun held => held.mono fun _ member => same.mem_iff.mp member,
    fun held => held.mono fun _ member => same.mem_iff.mpr member⟩

theorem Holds.sameAnswers {other : SessionEntryEvidenceIndex} (holds : Holds env added index)
    (again : Holds env entries other) (same : entries.Perm added) : SameAnswers other index := by
  have broken : ∀ id, BrokenChain entries id ↔ BrokenChain added id := by
    intro id
    rw [brokenChain_iff holds.follows.distinct, brokenChain_iff again.follows.distinct]
    simp only [ParentChain.perm same]
  refine ⟨fun ancestorId descendantId => ?_, fun id query requested => ?_⟩
  · have mine := holds.answers.isAncestor_throws ancestorId descendantId
    have other := again.answers.isAncestor_throws ancestorId descendantId
    rw [broken, broken] at other
    by_cases missing : BrokenChain added ancestorId ∨ BrokenChain added descendantId
    · rw [other.mpr missing, mine.mpr missing]
    · rw [not_or, brokenChain_iff holds.follows.distinct, brokenChain_iff holds.follows.distinct,
        not_not, not_not] at missing
      obtain ⟨⟨older, above⟩, ⟨chain, held⟩⟩ := missing
      rw [holds.follows.isAncestor above held, again.follows.isAncestor
        ((ParentChain.perm same).mpr above) ((ParentChain.perm same).mpr held)]
  · rcases chain_or_broken holds.follows.distinct id with ⟨chain, held⟩ | missing
    · obtain ⟨lineage, read, described, -⟩ := holds.follows.describes held
      obtain ⟨twin, twinRead, twinDescribed, -⟩ :=
        again.follows.describes ((ParentChain.perm same).mpr held)
      unfold SessionEntryEvidenceIndex.findAncestors
      simp only [read, twinRead, bind, Except.bind, described.evidence, twinDescribed.evidence]
    · unfold SessionEntryEvidenceIndex.findAncestors
      rw [holds.follows.requireEntry_broken missing,
        again.follows.requireEntry_broken ((broken id).mpr missing)]

/-- The index answers ancestry exactly, whatever the order of the additions. -/
theorem evidence_index_answers_ancestry (env : Platform) (entries : List SessionEntry)
    (index : SessionEntryEvidenceIndex)
    (built : entries.foldlM (SessionEntryEvidenceIndex.add env) .empty = .ok index) :
    AnswersAncestry env entries index ∧ ∀ other : List SessionEntry, other.Perm entries →
      ∃ again, other.foldlM (SessionEntryEvidenceIndex.add env) .empty = .ok again ∧
        SameAnswers again index := by
  have holds : Holds env entries index := ((holds_empty env).run entries).1 index built
  refine ⟨holds.answers, fun other same => ?_⟩
  obtain ⟨next, rebuilt⟩ := ((holds_empty env).run other).2 (holds.admissible.perm same)
  exact ⟨next, rebuilt, holds.sameAnswers (((holds_empty env).run other).1 next rebuilt)
    same⟩

/-- A request that is saved before the message it follows. -/
def requestFirst : List SessionEntry :=
  [{ id := "request", parentId := some "message", timestamp := ""
     body := .requestSnapshot "first" [] },
    { id := "message", parentId := none, timestamp := ""
      body := .message (.user .null 0) false none }]

theorem requestFirst_answers :
    ∃ index, requestFirst.foldlM (SessionEntryEvidenceIndex.add plainPlatform) .empty = .ok index ∧
      index.isAncestor "message" "request" = .ok true ∧
        index.findAncestors "request" { type := .requestSnapshot } none = .ok ["request"] := by
  have admissible : Admissible plainPlatform requestFirst :=
    { ids := by decide +kernel
      distinct := by decide +kernel
      readable := by
        rintro entry member
        simp only [requestFirst, List.mem_cons, List.not_mem_nil, or_false] at member
        rcases member with rfl | rfl
        · exact ⟨_, rfl⟩
        · exact ⟨_, rfl⟩
      bounded := by decide +kernel
      indexed := by decide +kernel }
  obtain ⟨index, built⟩ := ((holds_empty plainPlatform).run requestFirst).2 admissible
  obtain ⟨answers, -⟩ := evidence_index_answers_ancestry plainPlatform requestFirst index built
  have message : ParentChain requestFirst "message" (requestFirst.drop 1) :=
    .root (List.mem_cons_of_mem _ List.mem_cons_self) rfl
  have request : ParentChain requestFirst "request" requestFirst :=
    .child List.mem_cons_self (by decide +kernel) message
  refine ⟨index, built, answers.isAncestor _ _ _ _ message request, ?_⟩
  exact answers.findAncestors "request" requestFirst { type := .requestSnapshot } none 64 request
    ⟨rfl, by decide⟩

end PiAdaptative.SessionEvidence
