import PiAdaptative.SessionEvidence.EvidenceIndex

/-!
# Lineages follow parent chains

Whatever the order of the additions, an entry has a lineage exactly where its parent chain is
complete, and the lineage describes that chain.
-/

namespace PiAdaptative.SessionEvidence

open Session JumpTables

variable {env : Platform}

/-- Whether a key is one of an entry's. -/
def hasKey (env : Platform) (key : EvidenceKey) (entry : SessionEntry) : Bool :=
  match evidenceKeys env entry with
  | .ok keys => keys.contains key
  | .error _ => false

/-- A lineage that describes a parent chain. -/
structure Describes (env : Platform) (chain : List SessionEntry) (lineage : EntryLineage) :
    Prop where
  root : (idsOf chain).getLast? = some lineage.root
  depth : lineage.depth + 1 = chain.length
  ancestors : Jumps (idsOf chain) lineage.ancestors
  formed : lineage.evidence.WellFormed
  evidence : ∀ key, (lineage.evidence.get? key).getD [] = idsOf (chain.filter (hasKey env key))

variable {keys : List EvidenceKey} {evidence : AvlTree EvidenceKey (List String)}

theorem setEvidence_spec (id : String) (nodup : keys.Nodup) (formed : evidence.WellFormed) :
    (setEvidence id keys evidence).WellFormed ∧ ∀ key,
      ((setEvidence id keys evidence).get? key).getD [] =
        if key ∈ keys then id :: (evidence.get? key).getD [] else (evidence.get? key).getD [] := by
  induction keys generalizing evidence with
  | nil => exact ⟨formed, fun key => by simp [setEvidence]⟩
  | cons first keys ih =>
      obtain ⟨absent, rest⟩ := List.nodup_cons.mp nodup
      obtain ⟨kept, reads⟩ := ih rest (formed.set first (id :: (evidence.get? first).getD []))
      refine ⟨kept, fun key => (reads key).trans ?_⟩
      rw [formed.get?_set]
      by_cases same : key = first
      · subst same
        simp [absent]
      · simp [same]

variable {entry : SessionEntry} {chain : List SessionEntry}

theorem evidence_cons (read : evidenceKeys env entry = .ok keys) (formed : evidence.WellFormed)
    (older : ∀ key, (evidence.get? key).getD [] = idsOf (chain.filter (hasKey env key))) :
    (setEvidence entry.id keys evidence).WellFormed ∧ ∀ key,
      ((setEvidence entry.id keys evidence).get? key).getD [] =
        idsOf ((entry :: chain).filter (hasKey env key)) := by
  obtain ⟨kept, reads⟩ := setEvidence_spec entry.id (nodup_evidenceKeys read) formed
  refine ⟨kept, fun key => ?_⟩
  rw [reads, older, List.filter_cons]
  have own : hasKey env key entry = keys.contains key := by rw [hasKey, read]
  by_cases member : key ∈ keys
  · rw [own, if_pos member, if_pos (List.contains_iff_mem.mpr member)]
    rfl
  · rw [own, if_neg member, if_neg fun held => member (List.contains_iff_mem.mp held)]

namespace SessionEntryEvidenceIndex

theorem lineageBelow_root (index : SessionEntryEvidenceIndex)
    (read : evidenceKeys env entry = .ok keys) :
    Describes env [entry] (index.lineageBelow entry.id keys none) := by
  have nothing : ∀ key, ((AvlTree.leaf.get? key).getD [] : List String) =
      idsOf (([] : List SessionEntry).filter (hasKey env key)) := fun key => rfl
  obtain ⟨formed, reads⟩ := evidence_cons read AvlTree.wellFormed_leaf nothing
  refine ⟨rfl, rfl, fun level => ?_, formed, reads⟩
  exact (List.getElem?_eq_none (Nat.one_le_two_pow)).symm

theorem lineageBelow_child {index : SessionEntryEvidenceIndex}
    (read : evidenceKeys env entry = .ok keys) {parentId : String} {above : EntryLineage}
    (found : index.lineage? parentId = some above) (start : (idsOf chain)[0]? = some parentId)
    (described : Describes env chain above) (tables : TablesFrom index.ancestors? (idsOf chain) 0) :
    Describes env (entry :: chain) (index.lineageBelow entry.id keys (some parentId)) := by
  obtain ⟨formed, reads⟩ := evidence_cons read described.formed described.evidence
  simp only [lineageBelow, found]
  refine ⟨?_, ?_, fun level => ?_, formed, reads⟩
  · have last := described.root
    rw [idsOf, List.map_cons, List.getLast?_cons]
    rw [idsOf] at last
    rw [last]
    rfl
  · rw [List.length_cons, ← described.depth]
    rfl
  · have behind := tables.cons entry.id
    have covered : (entry.id :: idsOf chain).length ≤ 2 ^ (0 + 1 + above.depth) := by
      rw [List.length_cons, idsOf, List.length_map, ← described.depth, Nat.zero_add,
        Nat.add_comm 1]
      exact Nat.lt_two_pow_self
    have first : (entry.id :: idsOf chain)[2 ^ 0]? = some parentId := by
      rw [Nat.pow_zero, List.getElem?_cons_succ, start]
    have filled := fillJumps_getElem? behind first covered level
    rw [Nat.zero_add] at filled
    exact filled

end SessionEntryEvidenceIndex

open SessionEntryEvidenceIndex

/-- The state of an index after some additions, while entries are pending. -/
structure Follows (env : Platform) (added : List SessionEntry) (index : SessionEntryEvidenceIndex)
    (pending : List String) : Prop where
  distinct : (idsOf added).Nodup
  reads : ∀ entry ∈ added, ∃ indexed, index.entries.get? entry.id = some indexed ∧
    indexed.parentId = sessionEvidenceParentId entry ∧ evidenceKeys env entry = .ok indexed.keys
  only : ∀ id, index.entries.has id = true → id ∈ idsOf added
  attached : ∀ id lineage, index.lineage? id = some lineage → ∃ chain,
    ParentChain added id chain ∧ Describes env chain lineage ∧
      ∀ entry ∈ chain, (index.lineage? entry.id).isSome = true
  /-- An entry without a lineage is pending or waits for a parent that has none. -/
  early : ∀ entry ∈ added, ∀ parent, sessionEvidenceParentId entry = some parent →
    index.lineage? entry.id = none → entry.id ∈ pending ∨ ∃ parentId, parent = some parentId ∧
      index.lineage? parentId = none ∧ entry.id ∈ index.children parentId
  waits : ∀ parentId, ∀ id ∈ index.children parentId, ∃ entry ∈ added, entry.id = id ∧
    sessionEvidenceParentId entry = some (some parentId)
  /-- A pending entry is a root or has a parent with a lineage. -/
  ready : ∀ id ∈ pending, ∃ entry ∈ added, entry.id = id ∧ ∃ parent,
    sessionEvidenceParentId entry = some parent ∧
      ∀ parentId, parent = some parentId → (index.lineage? parentId).isSome = true

variable {added : List SessionEntry} {index : SessionEntryEvidenceIndex} {pending : List String}

/-- The lineages along a chain give its jump tables. -/
theorem Follows.tables (follows : Follows env added index pending) {id : String}
    (held : ParentChain added id chain)
    (lineages : ∀ entry ∈ chain, (index.lineage? entry.id).isSome = true) :
    TablesFrom index.ancestors? (idsOf chain) 0 := by
  intro distance node _ here
  rw [idsOf, List.getElem?_map, Option.map_eq_some_iff] at here
  obtain ⟨entry, inChain, rfl⟩ := here
  obtain ⟨lineage, found⟩ := Option.isSome_iff_exists.mp
    (lineages entry (List.mem_of_getElem? inChain))
  obtain ⟨own, ownChain, described, -⟩ := follows.attached _ _ found
  refine ⟨lineage.ancestors, by rw [ancestors?, found]; rfl, ?_⟩
  have rest := described.ancestors
  rwa [ownChain.unique follows.distinct (held.drop inChain), idsOf, List.map_drop] at rest

/-- An entry that is ready gets a lineage that describes its chain. -/
theorem Follows.lineageBelow (follows : Follows env added index pending) (member : entry ∈ added)
    (read : evidenceKeys env entry = .ok keys) {parent : Option String}
    (link : sessionEvidenceParentId entry = some parent)
    (ready : ∀ parentId, parent = some parentId → (index.lineage? parentId).isSome = true) :
    ∃ chain, ParentChain added entry.id (entry :: chain) ∧
      Describes env (entry :: chain) (index.lineageBelow entry.id keys parent) ∧
        ∀ older ∈ chain, (index.lineage? older.id).isSome = true := by
  cases parent with
  | none =>
      exact ⟨[], .root member (sessionEvidenceParentId_root.mp link), lineageBelow_root index read,
        by simp⟩
  | some parentId =>
      obtain ⟨above, found⟩ := Option.isSome_iff_exists.mp (ready parentId rfl)
      obtain ⟨chain, held, described, lineages⟩ := follows.attached _ _ found
      exact ⟨chain, .child member link held,
        lineageBelow_child read found held.head? described (follows.tables held lineages), lineages⟩

theorem lineage?_attach (index : SessionEntryEvidenceIndex) (id other : String)
    (entry : IndexedEntry) (parent : Option String) :
    (index.attach id entry parent).lineage? other =
      if other = id then some (index.lineageBelow id entry.keys parent)
      else index.lineage? other := by
  unfold lineage? attach
  rw [OrderedMap.get?_set]
  split <;> rfl

/-- Attaching a pending entry and releasing its children keeps the index in step. -/
theorem Follows.attachNext {id : String} (follows : Follows env added index (id :: pending)) :
    Follows env added ((index.attachEntry id).release id)
      (((index.attachEntry id).children id).reverse ++ pending) := by
  obtain ⟨entry, member, rfl, parent, link, ready⟩ := follows.ready id List.mem_cons_self
  obtain ⟨indexed, found, sameLink, read⟩ := follows.reads entry member
  obtain ⟨chain, held, described, older⟩ := follows.lineageBelow member read link ready
  have parents : indexed.parentId.join.filter index.entries.has = parent := by
    rw [sameLink, link]
    cases parent with
    | none => rfl
    | some parentId =>
        have present : index.entries.has parentId = true := by
          obtain ⟨lineage, above⟩ := Option.isSome_iff_exists.mp (ready parentId rfl)
          obtain ⟨kept, read, -⟩ := Option.bind_eq_some_iff.mp above
          exact OrderedMap.has_eq_true.mpr ⟨kept, read⟩
        simp [present]
  have next : index.attachEntry entry.id = index.attach entry.id indexed parent := by
    unfold attachEntry
    rw [found]
    dsimp only
    rw [parents]
  have lineages : ∀ other, ((index.attachEntry entry.id).release entry.id).lineage? other =
      if other = entry.id then some (index.lineageBelow entry.id indexed.keys parent)
      else index.lineage? other := by
    rw [next]
    exact fun other => lineage?_attach index entry.id other indexed parent
  have grown : ∀ other, (index.lineage? other).isSome = true →
      (((index.attachEntry entry.id).release entry.id).lineage? other).isSome = true := by
    intro other present
    rw [lineages]
    split
    · rfl
    · exact present
  have children : ∀ other, ((index.attachEntry entry.id).release entry.id).children other =
      if other = entry.id then [] else index.children other := by
    intro other
    unfold SessionEntryEvidenceIndex.children release
    rw [waiting_attachEntry, OrderedMap.get?_erase]
    split <;> rfl
  have own : (index.attachEntry entry.id).children entry.id = index.children entry.id := by
    unfold SessionEntryEvidenceIndex.children
    rw [waiting_attachEntry]
  rw [own]
  refine ⟨follows.distinct, fun other present => ?_, fun other present => ?_,
    fun other lineage attached => ?_, fun other present otherParent otherLink missing => ?_,
    fun parentId other waiting => ?_, fun other listed => ?_⟩
  · obtain ⟨kept, otherFound, rest⟩ := follows.reads other present
    rw [next]
    unfold release attach
    simp only [OrderedMap.get?_set]
    split
    · next same =>
        rw [same, found] at otherFound
        cases otherFound
        exact ⟨_, rfl, rest⟩
    · exact ⟨kept, otherFound, rest⟩
  · rw [next] at present
    unfold release attach at present
    simp only [OrderedMap.has_set, Bool.or_eq_true, decide_eq_true_eq] at present
    rcases present with rfl | earlier
    · exact List.mem_map_of_mem member
    · exact follows.only other earlier
  · rw [lineages] at attached
    split at attached
    · next same =>
        cases attached
        rw [same]
        refine ⟨entry :: chain, held, described, ?_⟩
        rw [List.forall_mem_cons, lineages, if_pos rfl]
        exact ⟨rfl, fun ancestor onChain => grown _ (older ancestor onChain)⟩
    · obtain ⟨otherChain, otherHeld, otherDescribed, rest⟩ := follows.attached other lineage attached
      exact ⟨otherChain, otherHeld, otherDescribed,
        fun ancestor onChain => grown _ (rest ancestor onChain)⟩
  · rw [lineages] at missing
    split at missing
    · cases missing
    · next different =>
        rcases follows.early other present otherParent otherLink missing with
          inPending | ⟨parentId, rfl, noLineage, waiting⟩
        · rcases List.mem_cons.mp inPending with same | later
          · exact absurd same different
          · exact .inl (List.mem_append_right _ later)
        · by_cases same : parentId = entry.id
          · subst same
            exact .inl (List.mem_append_left _ (List.mem_reverse.mpr waiting))
          · refine .inr ⟨parentId, rfl, ?_, ?_⟩
            · rw [lineages, if_neg same, noLineage]
            · rw [children, if_neg same]
              exact waiting
  · rw [children] at waiting
    split at waiting
    · cases waiting
    · exact follows.waits parentId other waiting
  · rcases List.mem_append.mp listed with released | later
    · obtain ⟨child, childMember, rfl, childLink⟩ :=
        follows.waits entry.id other (List.mem_reverse.mp released)
      refine ⟨child, childMember, rfl, some entry.id, childLink, fun parentId same => ?_⟩
      rw [lineages, if_pos (Option.some.inj same).symm]
      rfl
    · obtain ⟨waiter, waiterMember, same, otherParent, otherLink, otherReady⟩ :=
        follows.ready other (List.mem_cons_of_mem _ later)
      exact ⟨waiter, waiterMember, same, otherParent, otherLink,
        fun parentId equal => grown _ (otherReady parentId equal)⟩

/-- The pending entries and all that waited for them are attached. -/
theorem Follows.attachPending (follows : Follows env added index pending) :
    Follows env added (index.attachPending pending) [] := by
  induction index, pending using SessionEntryEvidenceIndex.attachPending.induct with
  | case1 index =>
      rw [SessionEntryEvidenceIndex.attachPending]
      exact follows
  | case2 index id pending ih =>
      rw [SessionEntryEvidenceIndex.attachPending]
      exact ih follows.attachNext

end PiAdaptative.SessionEvidence
