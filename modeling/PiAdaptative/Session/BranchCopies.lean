import PiAdaptative.Session.Labels

/-!
# Branch copies

A branch copy holds the entries of a path other than its labels, each following the entry it followed
before, and new labels after them.  An entry that followed a label follows nothing in the copy: the
copy reads back whole where the labels of the path precede or succeed all its other entries.
-/

namespace PiAdaptative.Session

open SessionManager (EntryDraft chain isLabel withoutLabels labelDrafts labelEntry assertDistinct
  assertAcyclic buildIndex)

variable {env : Platform} {manager copy : SessionManager} {entry : SessionEntry}
variable {entries path leading trailing : List SessionEntry}

/-! ## Entries of a copy -/

theorem parentEntry_of_mem {parent : SessionEntry} (distinct : (entries.map SessionEntry.id).Nodup)
    (named : parent.id ≠ "") (member : parent ∈ entries) (follows : entry.parentId = some parent.id) :
    parentEntry (entriesById entries) entry = some parent := by
  rw [parentEntry, follows, truthy_eq_some.mpr ⟨rfl, named⟩, Option.bind_some,
    entriesById_of_mem distinct member]

theorem parentEntry_eq_none (unknown : ∀ parent ∈ entries, entry.parentId ≠ some parent.id) :
    parentEntry (entriesById entries) entry = none := by
  cases found : parentEntry (entriesById entries) entry with
  | none => rfl
  | some parent =>
      obtain ⟨member, follows⟩ := parentEntry_eq_some found
      exact absurd follows (unknown parent member)

theorem assertDistinct_eq_ok {before : List String} :
    assertDistinct before entries = .ok () ↔
      (∀ entry ∈ entries, entry.id ≠ "" ∧ entry.id ∉ before) ∧
        (entries.map SessionEntry.id).Nodup := by
  induction entries generalizing before with
  | nil => simp [assertDistinct]
  | cons entry entries ih =>
      simp only [assertDistinct, bind_eq_ok, exists_unit, throwPlainIf_eq_ok, ih, List.mem_append,
        List.mem_singleton, not_or, List.forall_mem_cons, List.map_cons, List.nodup_cons,
        List.contains_iff_mem, List.mem_map, not_exists, not_and]
      constructor
      · rintro ⟨named, unused, rest, distinct⟩
        exact ⟨⟨⟨named, unused⟩, fun other member => ⟨(rest other member).1, (rest other member).2.1⟩⟩,
          fun other member => (rest other member).2.2, distinct⟩
      · rintro ⟨⟨⟨named, unused⟩, rest⟩, unlike, distinct⟩
        exact ⟨named, unused,
          fun other member => ⟨(rest other member).1, (rest other member).2, unlike other member⟩,
          distinct⟩

theorem assertAcyclic_eq_ok {lookup : Lookup} {bound : Nat} :
    assertAcyclic lookup bound entries = .ok () ↔
      ∀ entry ∈ entries, ∃ line, Lineage (parentEntry lookup) (some entry) line ∧
        line.length ≤ bound := by
  induction entries with
  | nil => simp [assertAcyclic]
  | cons entry entries ih =>
      simp only [assertAcyclic, bind_eq_ok, visitSessionAncestry_eq_ok, ih, List.forall_mem_cons,
        exists_and_right]

/-- A session file is read where its entries bear their own identities and have lines. -/
theorem buildIndex_eq_ok :
    buildIndex entries = .ok copy ↔
      ((∀ entry ∈ entries, entry.id ≠ "") ∧ (entries.map SessionEntry.id).Nodup ∧
        ∀ entry ∈ entries, ∃ line, Line entries (some entry) line) ∧
      copy = { entries
               leafId := entries.getLast?.map SessionEntry.id
               labelsById := entries.foldl labelEntry .empty
               sessionContextCache := none } := by
  simp only [buildIndex, bind_eq_ok, exists_unit, assertDistinct_eq_ok, assertAcyclic_eq_ok,
    pure_eq_ok]
  constructor
  · rintro ⟨⟨named, distinct⟩, lines, rfl⟩
    refine ⟨⟨fun entry member => (named entry member).1, distinct, ?_⟩, rfl⟩
    intro entry member
    obtain ⟨line, lineage, -⟩ := lines entry member
    exact ⟨line, lineage⟩
  · rintro ⟨⟨named, distinct, lines⟩, rfl⟩
    refine ⟨⟨fun entry member => ⟨named entry member, List.not_mem_nil⟩, distinct⟩, ?_, rfl⟩
    intro entry member
    obtain ⟨line, lineage⟩ := lines entry member
    refine ⟨line, lineage, Nat.le_succ_of_le (Line.length_le lineage ?_)⟩
    rintro _ ⟨⟩
    exact member

/-! ## Chains -/

theorem ids_chain (parentId : Option String) (drafts : List EntryDraft) :
    (chain parentId drafts).map SessionEntry.id = drafts.map EntryDraft.id := by
  induction drafts generalizing parentId with
  | nil => rfl
  | cons draft drafts ih => simp only [chain, List.map_cons, ih]

variable {parentId : Option String} {drafts : List EntryDraft}

/-- A chain extends the line of the entry it follows. -/
theorem Line.chain {line : List SessionEntry} (distinct : (entries.map SessionEntry.id).Nodup)
    (named : ∀ entry ∈ entries, entry.id ≠ "")
    (inside : ∀ entry ∈ SessionManager.chain parentId drafts, entry ∈ entries)
    (lineage : Line entries ((truthy parentId).bind (entriesById entries)) line) :
    Line entries ((SessionManager.chain parentId drafts).getLast?.or
        ((truthy parentId).bind (entriesById entries)))
      ((SessionManager.chain parentId drafts).reverse ++ line) := by
  induction drafts generalizing parentId line with
  | nil => exact lineage
  | cons draft drafts ih =>
      have member := inside _ List.mem_cons_self
      have here : (truthy (some draft.id)).bind (entriesById entries) =
          some ⟨draft.id, parentId, draft.timestamp, draft.body⟩ := by
        rw [truthy_eq_some.mpr ⟨rfl, named _ member⟩]
        exact entriesById_of_mem distinct member
      have first : Line entries ((truthy (some draft.id)).bind (entriesById entries))
          (⟨draft.id, parentId, draft.timestamp, draft.body⟩ :: line) := by
        rw [here]
        exact .child lineage
      have rest := ih (fun entry later => inside entry (List.mem_cons_of_mem _ later)) first
      rw [here] at rest
      rw [SessionManager.chain, List.reverse_cons, List.append_assoc, List.getLast?_cons]
      cases last : (SessionManager.chain (some draft.id) drafts).getLast? with
      | none =>
          rw [last] at rest
          exact rest
      | some entry =>
          rw [last] at rest
          exact rest

/-! ## Labels of a copy -/

def copiedLabels (manager : SessionManager) (path : List SessionEntry) (labelIds : List String)
    (timestamp : String → String) : List SessionEntry :=
  chain (truthy ((withoutLabels path).getLast?.map SessionEntry.id))
    (labelDrafts (manager.labelsToWrite (withoutLabels path)) labelIds timestamp)

def copiedEntries (manager : SessionManager) (path : List SessionEntry) (labelIds : List String)
    (timestamp : String → String) : List SessionEntry :=
  withoutLabels path ++ copiedLabels manager path labelIds timestamp

/-- Identities as `generateId` draws them for the labels of a copy: one for each, apart from each
other and from the copied entries. -/
structure LabelIdsDrawn (manager : SessionManager) (path : List SessionEntry)
    (labelIds : List String) : Prop where
  fresh : Fresh (withoutLabels path) labelIds
  enough : labelIds.length = (manager.labelsToWrite (withoutLabels path)).length

variable {labelIds : List String} {timestamp : String → String}

theorem LabelIdsDrawn.ids (drawn : LabelIdsDrawn manager path labelIds)
    (timestamp : String → String) :
    (copiedLabels manager path labelIds timestamp).map SessionEntry.id = labelIds := by
  rw [copiedLabels, ids_chain, labelDrafts, List.map_map]
  exact List.map_snd_zip (Nat.le_of_eq drawn.enough)

theorem labels_chain
    (labels : ∀ draft ∈ drafts, ∃ targetId label, draft.body = .label targetId label) :
    Labels (chain parentId drafts) := by
  induction drafts generalizing parentId with
  | nil => exact fun _ member => nomatch member
  | cons draft drafts ih =>
      intro entry member
      rcases List.mem_cons.mp member with rfl | later
      · exact isLabel_eq_true.mpr (labels draft List.mem_cons_self)
      · exact ih (fun other inside => labels other (List.mem_cons_of_mem _ inside)) entry later

theorem labels_copiedLabels (manager : SessionManager) (path : List SessionEntry)
    (labelIds : List String) (timestamp : String → String) :
    Labels (copiedLabels manager path labelIds timestamp) := by
  apply labels_chain
  intro draft member
  obtain ⟨label, -, rfl⟩ := List.mem_map.mp member
  exact ⟨_, _, rfl⟩

theorem withoutLabels_append (before after : List SessionEntry) :
    withoutLabels (before ++ after) = withoutLabels before ++ withoutLabels after :=
  List.filter_append ..

theorem Labels.withoutLabels (labels : Labels leading) : withoutLabels leading = [] := by
  rw [SessionManager.withoutLabels, List.filter_eq_nil_iff]
  intro entry member
  simp [labels entry member]

theorem mem_withoutLabels : entry ∈ withoutLabels path ↔ entry ∈ path ∧ isLabel entry = false := by
  simp [withoutLabels]

theorem withoutLabels_self (body : ∀ entry ∈ path, isLabel entry = false) :
    withoutLabels path = path := by
  rw [withoutLabels, List.filter_eq_self]
  intro entry member
  simp [body entry member]

/-- The entries of a copy bear identities of their own. -/
theorem LabelIdsDrawn.distinct (drawn : LabelIdsDrawn manager path labelIds)
    (timestamp : String → String) (distinct : (path.map SessionEntry.id).Nodup) :
    ((copiedEntries manager path labelIds timestamp).map SessionEntry.id).Nodup := by
  rw [copiedEntries, List.map_append, drawn.ids, List.nodup_append]
  refine ⟨(List.filter_sublist.map _).nodup distinct, drawn.fresh.1, ?_⟩
  rintro id member _ label rfl
  obtain ⟨entry, inside, rfl⟩ := List.mem_map.mp member
  exact drawn.fresh.2.2 entry inside label

theorem LabelIdsDrawn.named (drawn : LabelIdsDrawn manager path labelIds)
    (timestamp : String → String) (named : ∀ entry ∈ path, entry.id ≠ "") :
    ∀ entry ∈ copiedEntries manager path labelIds timestamp, entry.id ≠ "" := by
  intro entry member
  rcases List.mem_append.mp member with copied | label
  · exact named entry (mem_withoutLabels.mp copied).1
  · intro empty
    apply drawn.fresh.2.1
    rw [← empty, ← drawn.ids timestamp]
    exact List.mem_map_of_mem label

/-! ## Labels read from a copy -/

theorem foldl_labelEntry_unlabelled (body : ∀ entry ∈ path, isLabel entry = false)
    (labels : OrderedMap String String) : path.foldl labelEntry labels = labels := by
  induction path with
  | nil => rfl
  | cons entry path ih =>
      have unlabelled := body entry List.mem_cons_self
      have ignored : labelEntry labels entry = labels := by
        unfold isLabel at unlabelled
        unfold labelEntry
        split at unlabelled
        · cases unlabelled
        · rfl
      rw [List.foldl_cons, ignored]
      exact ih fun other member => body other (List.mem_cons_of_mem _ member)

theorem get?_foldl_chain {written : List (String × String)} {ids : List String}
    (labels : OrderedMap String String) (enough : ids.length = written.length)
    (distinct : (written.map Prod.fst).Nodup) (named : ∀ label ∈ written, label.2 ≠ "")
    (id : String) :
    ((chain parentId (labelDrafts written ids timestamp)).foldl labelEntry labels).get? id =
      ((written.find? fun label => label.1 = id).map Prod.snd).or (labels.get? id) := by
  induction written generalizing parentId ids labels with
  | nil => simp [labelDrafts, chain]
  | cons label written ih =>
      cases ids with
      | nil => cases enough
      | cons labelId ids =>
          obtain ⟨unwritten, rest⟩ := List.nodup_cons.mp distinct
          have writes : labelEntry labels
                ⟨labelId, parentId, timestamp label.1, .label label.1 (some label.2)⟩ =
              labels.set label.1 label.2 := by
            simp only [labelEntry, truthy_eq_some.mpr ⟨rfl, named label List.mem_cons_self⟩]
          change ((chain (some labelId) (labelDrafts written ids timestamp)).foldl labelEntry
            (labelEntry labels _)).get? id = _
          rw [writes, ih _ (Nat.succ.inj enough) rest
              fun other member => named other (List.mem_cons_of_mem _ member),
            OrderedMap.get?_set, List.find?_cons]
          by_cases same : label.1 = id
          · have absent : (written.find? fun label => label.1 = id) = none := by
              rw [List.find?_eq_none]
              intro other member
              rw [decide_eq_true_eq]
              rintro rfl
              exact unwritten (same ▸ List.mem_map_of_mem member)
            simp [same, absent]
          · simp [same, Ne.symm same]

/-! ## What a copy preserves -/

/-- The copy of a branch preserves its entries other than labels, its context and the labels of its
entries. -/
def CopyPreserves (env : Platform) (manager : SessionManager) (leafId : String)
    (labelIds : List String) (timestamp : String → String) : Prop :=
  ∃ copy source copied, manager.createBranchedSessionManager leafId labelIds timestamp = .ok copy ∧
    manager.getBranch (some leafId) = .ok source ∧ copy.getBranch none = .ok copied ∧
    withoutLabels copied = withoutLabels source ∧
    buildSessionContext env copy.entries copy.leafId =
      buildSessionContext env manager.entries (some leafId) ∧
    ∀ entry ∈ withoutLabels source, copy.getLabel entry.id = manager.getLabel entry.id

/-- Every label of a path has only labels before it or only labels after it. -/
def LabelsAside (path : List SessionEntry) : Prop :=
  ∀ before label after, path = before ++ label :: after → isLabel label = true →
    Labels before ∨ Labels after

/-- No copied entry follows an entry whose identity is drawn for a label of the copy. -/
def Unadopted (path : List SessionEntry) (labelIds : List String) : Prop :=
  ∀ entry ∈ withoutLabels path, ∀ parentId, entry.parentId = some parentId → parentId ∉ labelIds

def leadingLabels (path : List SessionEntry) : List SessionEntry := path.takeWhile isLabel

theorem Labels.cons (first : isLabel entry = true) (rest : Labels path) : Labels (entry :: path) := by
  intro other member
  rcases List.mem_cons.mp member with rfl | inside
  · exact first
  · exact rest other inside

theorem Labels.tail (labels : Labels (entry :: path)) : Labels path :=
  fun other member => labels other (List.mem_cons_of_mem _ member)

theorem withoutLabels_cons (entry : SessionEntry) (path : List SessionEntry) :
    withoutLabels (entry :: path) =
      if isLabel entry then withoutLabels path else entry :: withoutLabels path := by
  cases label : isLabel entry <;> simp [withoutLabels, label]

theorem split_of_trailing
    (aside : ∀ before label after, path = before ++ label :: after → isLabel label = true →
      Labels after) :
    ∃ trailing, path = withoutLabels path ++ trailing ∧ Labels trailing := by
  induction path with
  | nil => exact ⟨[], rfl, fun _ member => nomatch member⟩
  | cons entry path ih =>
      rw [withoutLabels_cons]
      cases label : isLabel entry with
      | true =>
          have rest : Labels path := aside [] entry path rfl label
          refine ⟨entry :: path, ?_, rest.cons label⟩
          rw [if_pos rfl, rest.withoutLabels, List.nil_append]
      | false =>
          obtain ⟨trailing, split, trails⟩ := ih fun before other after parts =>
            aside (entry :: before) other after (by rw [parts]; rfl)
          refine ⟨trailing, ?_, trails⟩
          rw [if_neg nofun, List.cons_append, ← split]

/-- Labels aside leave the other entries of a path together. -/
theorem LabelsAside.split (aside : LabelsAside path) :
    ∃ trailing, path = leadingLabels path ++ withoutLabels path ++ trailing ∧ Labels trailing := by
  induction path with
  | nil => exact ⟨[], rfl, fun _ member => nomatch member⟩
  | cons entry path ih =>
      rw [withoutLabels_cons, leadingLabels, List.takeWhile_cons]
      cases label : isLabel entry with
      | true =>
          obtain ⟨trailing, split, trails⟩ := ih fun before other after parts labelled =>
            (aside (entry :: before) other after (by rw [parts]; rfl) labelled).imp_left Labels.tail
          refine ⟨trailing, ?_, trails⟩
          exact congrArg _ split
      | false =>
          obtain ⟨trailing, split, trails⟩ : ∃ trailing,
              path = withoutLabels path ++ trailing ∧ Labels trailing := by
            apply split_of_trailing
            intro before other after parts labelled
            have sides := aside (entry :: before) other after (by rw [parts]; rfl) labelled
            refine sides.resolve_left fun labels => ?_
            rw [labels entry List.mem_cons_self] at label
            cases label
          refine ⟨trailing, ?_, trails⟩
          exact congrArg _ split

theorem labels_leadingLabels (path : List SessionEntry) : Labels (leadingLabels path) := by
  induction path with
  | nil => exact fun _ member => nomatch member
  | cons entry path ih =>
      rw [leadingLabels, List.takeWhile_cons]
      cases label : isLabel entry with
      | true => exact ih.cons label
      | false => exact fun _ member => nomatch member

/-! ## The line of a copy -/

theorem Grown.parentEntry_of_follows {parentId : String} (grown : Grown entries)
    (member : entry ∈ entries) (follows : entry.parentId = some parentId) :
    ∃ parent, parentEntry (entriesById entries) entry = some parent ∧ parent.id = parentId := by
  obtain ⟨parent, inside, rfl⟩ := grown.rooted member follows
  exact ⟨parent, parentEntry_of_mem grown.ids_nodup (grown.named parent inside) inside follows, rfl⟩

/-- A copied entry that followed a label follows nothing. -/
theorem parentEntry_of_label {label : SessionEntry}
    (distinct : (path.map SessionEntry.id).Nodup) (drawn : LabelIdsDrawn manager path labelIds)
    (timestamp : String → String) (unadopted : Unadopted path labelIds)
    (copied : entry ∈ withoutLabels path) (present : label ∈ path) (labelled : isLabel label = true)
    (follows : entry.parentId = some label.id) :
    parentEntry (entriesById (copiedEntries manager path labelIds timestamp)) entry = none := by
  apply parentEntry_eq_none
  intro parent member other
  have same : label.id = parent.id := Option.some.inj (follows.symm.trans other)
  rcases List.mem_append.mp member with kept | written
  · obtain ⟨inside, unlabelled⟩ := mem_withoutLabels.mp kept
    rw [← List.inj_on_of_nodup_map distinct present inside same, labelled] at unlabelled
    cases unlabelled
  · refine unadopted entry copied parent.id other ?_
    rw [← drawn.ids timestamp]
    exact List.mem_map_of_mem written

/-- The copied entries of a path without labels between them follow one another. -/
theorem line_withoutLabels {leafId : Option String} (grown : Grown manager.entries)
    (isPath : IsPath manager.entries leafId path) (drawn : LabelIdsDrawn manager path labelIds)
    (timestamp : String → String) (aside : LabelsAside path) (unadopted : Unadopted path labelIds) :
    Line (copiedEntries manager path labelIds timestamp) (withoutLabels path).getLast?
      (withoutLabels path).reverse := by
  have distinct := isPath.ids_nodup grown
  have inside := isPath.mem
  obtain ⟨line, lineage, reversed⟩ := isPath
  obtain ⟨trailing, split, -⟩ := aside.split
  have newest : line = trailing.reverse ++ ((withoutLabels path).reverse ++
      (leadingLabels path).reverse) := by
    rw [← List.reverse_append, ← List.reverse_append, ← split, reversed, List.reverse_reverse]
  have ids := drawn.distinct timestamp distinct
  have named := drawn.named timestamp fun entry member => grown.named entry (inside entry member)
  rw [← List.head?_reverse]
  apply Lineage.of_links
  · intro newer node next older parts
    rw [parts, List.append_assoc, ← List.append_assoc] at newest
    rw [newest] at lineage
    have found : parentEntry (entriesById manager.entries) node = some next := lineage.parent_eq
    have member : next ∈ withoutLabels path := by
      rw [← List.mem_reverse, parts]
      simp
    have copied : next ∈ copiedEntries manager path labelIds timestamp :=
      List.mem_append_left _ member
    exact parentEntry_of_mem ids (named next copied) copied (parentEntry_eq_some found).2
  · intro newer node parts
    have copied : node ∈ withoutLabels path := by
      rw [← List.mem_reverse, parts]
      simp
    rw [parts, List.append_assoc, ← List.append_assoc] at newest
    cases before : (leadingLabels path).reverse with
    | nil =>
        apply parentEntry_eq_none
        intro parent member follows
        obtain ⟨source, found, -⟩ := grown.parentEntry_of_follows
          (inside node (mem_withoutLabels.mp copied).1) follows
        rw [before] at newest
        rw [newest] at lineage
        rw [lineage.parent_last] at found
        cases found
    | cons label older =>
        rw [before, List.singleton_append] at newest
        rw [newest] at lineage
        have followed : parentEntry (entriesById manager.entries) node = some label :=
          lineage.parent_eq
        have leading : label ∈ leadingLabels path := by
          rw [← List.mem_reverse, before]
          exact List.mem_cons_self
        have onPath : label ∈ path := by
          rw [split]
          simp [leading]
        exact parentEntry_of_label distinct drawn timestamp unadopted copied onPath
          (labels_leadingLabels path label leading) (parentEntry_eq_some followed).2

theorem bind_last_id (distinct : (entries.map SessionEntry.id).Nodup)
    (named : ∀ entry ∈ entries, entry.id ≠ "") (inside : ∀ entry ∈ path, entry ∈ entries) :
    (truthy (path.getLast?.map SessionEntry.id)).bind (entriesById entries) = path.getLast? := by
  cases last : path.getLast? with
  | none => rfl
  | some entry =>
      have member := inside entry (List.mem_of_getLast? last)
      rw [Option.map_some, truthy_eq_some.mpr ⟨rfl, named entry member⟩, Option.bind_some,
        entriesById_of_mem distinct member]

theorem truthy_truthy (text : Option String) : truthy (truthy text) = truthy text := by
  cases read : truthy text with
  | none => rfl
  | some value => exact truthy_eq_some.mpr ⟨rfl, (truthy_eq_some.mp read).2⟩

/-- The labels of a copy extend the line of its last other entry. -/
theorem line_copiedEntries {line : List SessionEntry}
    (distinct : ((copiedEntries manager path labelIds timestamp).map SessionEntry.id).Nodup)
    (named : ∀ entry ∈ copiedEntries manager path labelIds timestamp, entry.id ≠ "")
    (lineage : Line (copiedEntries manager path labelIds timestamp) (withoutLabels path).getLast?
      line) :
    Line (copiedEntries manager path labelIds timestamp)
      (copiedEntries manager path labelIds timestamp).getLast?
      ((copiedLabels manager path labelIds timestamp).reverse ++ line) := by
  have start : (truthy (truthy ((withoutLabels path).getLast?.map SessionEntry.id))).bind
        (entriesById (copiedEntries manager path labelIds timestamp)) =
      (withoutLabels path).getLast? := by
    rw [truthy_truthy]
    exact bind_last_id distinct named fun entry member => List.mem_append_left _ member
  rw [← start] at lineage
  have extended := Line.chain distinct named
    (fun entry member => List.mem_append_right _ member) lineage
  rw [start] at extended
  rw [copiedEntries, List.getLast?_append]
  exact extended

theorem getLabel_copy (formed : WellFormed manager) (drawn : LabelIdsDrawn manager path labelIds)
    (member : entry ∈ withoutLabels path) :
    ((copiedEntries manager path labelIds timestamp).foldl labelEntry .empty).get? entry.id =
      manager.getLabel entry.id := by
  have written : ((manager.labelsToWrite (withoutLabels path)).map Prod.fst).Nodup :=
    (List.filter_sublist.map Prod.fst).nodup manager.labelsById.distinct
  have named : ∀ label ∈ manager.labelsToWrite (withoutLabels path), label.2 ≠ "" :=
    fun label inside => formed.labels label.1 label.2
      (OrderedMap.get?_eq_some.mpr (List.mem_of_mem_filter inside))
  rw [copiedEntries, List.foldl_append,
    foldl_labelEntry_unlabelled fun other inside => (mem_withoutLabels.mp inside).2,
    copiedLabels, get?_foldl_chain .empty drawn.enough written named, OrderedMap.get?_empty,
    Option.or_none, SessionManager.labelsToWrite, List.find?_filter, SessionManager.getLabel,
    OrderedMap.get?]
  congr 2
  funext label
  by_cases same : label.1 = entry.id
  · have present : ((withoutLabels path).any fun other => other.id = entry.id) = true :=
      List.any_eq_true.mpr ⟨entry, member, decide_eq_true rfl⟩
    simp only [same, present, decide_true, and_self]
  · simp [same]

variable {leafId : String}

theorem IsPath.ne_nil (known : Known entries (some leafId))
    (distinct : (entries.map SessionEntry.id).Nodup) (isPath : IsPath entries (some leafId) path) :
    path ≠ [] := by
  obtain ⟨leaf, inside, rfl⟩ := known leafId rfl
  obtain ⟨line, lineage, rfl⟩ := isPath
  rw [Option.bind_some, entriesById_of_mem distinct inside] at lineage
  cases lineage with
  | child rest => simp

theorem createBranchedSessionManager_eq (source : manager.getBranch (some leafId) = .ok path)
    (inhabited : path ≠ []) :
    manager.createBranchedSessionManager leafId labelIds timestamp =
      buildIndex (copiedEntries manager path labelIds timestamp) := by
  have present : throwPlainIf (path = []) s!"Entry {leafId} not found" = .ok () :=
    throwPlainIf_eq_ok.mpr inhabited
  simp only [SessionManager.createBranchedSessionManager, source, bind, Except.bind, present]
  rfl

theorem isPath_copiedEntries (distinct : (entries.map SessionEntry.id).Nodup)
    (lineage : Line entries entries.getLast? entries.reverse) :
    IsPath entries (entries.getLast?.map SessionEntry.id) entries := by
  refine ⟨entries.reverse, ?_, (List.reverse_reverse entries).symm⟩
  cases last : entries.getLast? with
  | none =>
      rw [last] at lineage
      exact lineage
  | some entry =>
      rw [Option.map_some, Option.bind_some,
        entriesById_of_mem distinct (List.mem_of_getLast? last), ← last]
      exact lineage

theorem known_getLast? (entries : List SessionEntry) :
    Known entries (entries.getLast?.map SessionEntry.id) := by
  intro id same
  obtain ⟨entry, last, rfl⟩ := Option.map_eq_some_iff.mp same
  exact ⟨entry, List.mem_of_getLast? last, rfl⟩

/-- A copy whose labels are aside preserves the branch. -/
theorem copyPreserves_of_labelsAside (formed : WellFormed manager)
    (known : Known manager.entries (some leafId))
    (isPath : IsPath manager.entries (some leafId) path)
    (drawn : LabelIdsDrawn manager path labelIds) (aside : LabelsAside path)
    (unadopted : Unadopted path labelIds) (unreferred : Unreferred (leadingLabels path) path) :
    CopyPreserves env manager leafId labelIds timestamp := by
  have grown := formed.grown
  have source : manager.getBranch (some leafId) = .ok path := formed.getBranch known isPath
  have distinct := drawn.distinct timestamp (isPath.ids_nodup grown)
  have named := drawn.named timestamp fun entry member => grown.named entry (isPath.mem entry member)
  have lineage := line_copiedEntries distinct named
    (line_withoutLabels grown isPath drawn timestamp aside unadopted)
  rw [← List.reverse_append] at lineage
  have lines : ∀ entry ∈ copiedEntries manager path labelIds timestamp,
      ∃ line, Line (copiedEntries manager path labelIds timestamp) (some entry) line := by
    intro entry member
    obtain ⟨newer, older, -, found⟩ := lineage.of_mem (List.mem_reverse.mpr member)
    exact ⟨entry :: older, found⟩
  have created : manager.createBranchedSessionManager leafId labelIds timestamp = .ok _ :=
    (createBranchedSessionManager_eq source (isPath.ne_nil known grown.ids_nodup)).trans
      (buildIndex_eq_ok.mpr ⟨⟨named, distinct, lines⟩, rfl⟩)
  have copied := isPath_copiedEntries distinct lineage
  refine ⟨_, path, copiedEntries manager path labelIds timestamp, created, source, ?_, ?_,
    ?_, fun entry member => getLabel_copy formed drawn member⟩
  · rw [SessionManager.getBranch, orElse_eq_or, Option.none_or, SessionManager.byId,
      truthy_of_known named (known_getLast? _)]
    exact copied.pathTo
  · rw [copiedEntries, withoutLabels_append,
      Labels.withoutLabels (labels_copiedLabels manager path labelIds timestamp), List.append_nil,
      withoutLabels_self fun entry member => (mem_withoutLabels.mp member).2]
  · rw [buildSessionContext_eq named distinct (known_getLast? _) copied,
      buildSessionContext_eq grown.named grown.ids_nodup known isPath]
    obtain ⟨trailing, split, trails⟩ := aside.split
    have unnamed : Unreferred (leadingLabels path) (withoutLabels path) := fun label inside entry member =>
      unreferred label inside entry (mem_withoutLabels.mp member).1
    have around : pathContext env (leadingLabels path ++ withoutLabels path ++ trailing) =
        pathContext env (withoutLabels path) :=
      pathContext_labels (labels_leadingLabels path) trails
        (by rw [← split]; exact isPath.ids_nodup grown) unnamed
    have after : pathContext env ([] ++ withoutLabels path ++
          copiedLabels manager path labelIds timestamp) =
        pathContext env (withoutLabels path) :=
      pathContext_labels (fun _ member => absurd member List.not_mem_nil)
        (labels_copiedLabels manager path labelIds timestamp) distinct
        (fun _ member => absurd member List.not_mem_nil)
    rw [← split] at around
    exact after.trans around.symm

/-! ## Copies that preserve -/

/-- What a copy that preserves a branch reads back. -/
theorem CopyPreserves.line (formed : WellFormed manager)
    (known : Known manager.entries (some leafId))
    (isPath : IsPath manager.entries (some leafId) path)
    (preserves : CopyPreserves env manager leafId labelIds timestamp) :
    (∀ entry ∈ copiedEntries manager path labelIds timestamp,
        ∃ line, Line (copiedEntries manager path labelIds timestamp) (some entry) line) ∧
      ∃ line, Line (copiedEntries manager path labelIds timestamp)
          (copiedEntries manager path labelIds timestamp).getLast? line ∧
        withoutLabels line.reverse = withoutLabels path := by
  obtain ⟨copy, source, copied, created, read, reads, same, -⟩ := preserves
  have branch : manager.getBranch (some leafId) = .ok path := formed.getBranch known isPath
  obtain rfl : source = path := Except.ok.inj (read.symm.trans branch)
  rw [createBranchedSessionManager_eq branch (isPath.ne_nil known formed.grown.ids_nodup),
    buildIndex_eq_ok] at created
  obtain ⟨⟨named, distinct, lines⟩, rfl⟩ := created
  rw [SessionManager.getBranch, orElse_eq_or, Option.none_or, SessionManager.byId,
    bind_last_id distinct named fun _ member => member] at reads
  simp only [pathTo, bind_eq_ok, visitSessionAncestry_eq_ok, pure_eq_ok] at reads
  obtain ⟨line, ⟨lineage, -⟩, rfl⟩ := reads
  exact ⟨lines, line, lineage, same⟩

/-- A copy that preserves a branch drew no identity of a label that a copied entry followed. -/
theorem CopyPreserves.unadopted (formed : WellFormed manager)
    (known : Known manager.entries (some leafId))
    (isPath : IsPath manager.entries (some leafId) path)
    (drawn : LabelIdsDrawn manager path labelIds)
    (preserves : CopyPreserves env manager leafId labelIds timestamp) :
    Unadopted path labelIds := by
  intro entry copied parentId follows adopted
  have distinct := drawn.distinct timestamp (isPath.ids_nodup formed.grown)
  have named := drawn.named timestamp
    fun entry member => formed.grown.named entry (isPath.mem entry member)
  obtain ⟨lines, line, lineage, same⟩ := preserves.line formed known isPath
  rw [← drawn.ids timestamp] at adopted
  obtain ⟨label, written, rfl⟩ := List.mem_map.mp adopted
  have inside : label ∈ copiedEntries manager path labelIds timestamp :=
    List.mem_append_right _ written
  obtain ⟨last, found⟩ : ∃ last, (withoutLabels path).getLast? = some last :=
    ⟨_, List.getLast?_eq_some_getLast (List.ne_nil_of_mem copied)⟩
  obtain ⟨older, before⟩ := lines last (List.mem_append_left _ (List.mem_of_getLast? found))
  rw [← found] at before
  obtain rfl := lineage.unique (line_copiedEntries distinct named before)
  have read : entry ∈ withoutLabels
      ((copiedLabels manager path labelIds timestamp).reverse ++ older).reverse := by
    rw [same]
    exact copied
  obtain ⟨member, unlabelled⟩ := mem_withoutLabels.mp read
  have earlier : entry ∈ older := by
    rcases List.mem_append.mp (List.mem_reverse.mp member) with among | inOlder
    · rw [labels_copiedLabels manager path labelIds timestamp entry (List.mem_reverse.mp among)]
        at unlabelled
      cases unlabelled
    · exact inOlder
  have again : label ∈ older :=
    before.parent_mem earlier (parentEntry_of_mem distinct (named label inside) inside follows)
  exact (List.nodup_append.mp lineage.nodup).2.2 label (List.mem_reverse.mpr written) label again rfl

theorem exists_first_unlabelled (mixed : ¬Labels path) :
    ∃ labels entry later, path = labels ++ entry :: later ∧ Labels labels ∧
      isLabel entry = false := by
  induction path with
  | nil => exact absurd (fun _ member => nomatch member) mixed
  | cons first path ih =>
      cases label : isLabel first with
      | false => exact ⟨[], first, path, rfl, (fun _ member => nomatch member), label⟩
      | true =>
          obtain ⟨labels, entry, later, rfl, leads, unlabelled⟩ :=
            ih fun rest => mixed (rest.cons label)
          exact ⟨first :: labels, entry, later, rfl, leads.cons label, unlabelled⟩

/-- A copy that preserves a branch has the labels aside. -/
theorem CopyPreserves.labelsAside (formed : WellFormed manager)
    (known : Known manager.entries (some leafId))
    (isPath : IsPath manager.entries (some leafId) path)
    (drawn : LabelIdsDrawn manager path labelIds)
    (preserves : CopyPreserves env manager leafId labelIds timestamp) : LabelsAside path := by
  have unadopted := preserves.unadopted formed known isPath drawn
  have distinct := isPath.ids_nodup formed.grown
  obtain ⟨-, line, lineage, same⟩ := preserves.line formed known isPath
  intro before label after parts labelled
  by_contra mixed
  obtain ⟨mixedBefore, mixedAfter⟩ := not_or.mp mixed
  obtain ⟨labels, entry, later, rfl, between, unlabelled⟩ := exists_first_unlabelled mixedAfter
  obtain ⟨earlier, first, rest, rfl, leads, kept⟩ := exists_first_unlabelled mixedBefore
  have copied : entry ∈ withoutLabels path := mem_withoutLabels.mpr ⟨by rw [parts]; simp, unlabelled⟩
  have root : parentEntry (entriesById (copiedEntries manager path labelIds timestamp)) entry =
      none := by
    obtain ⟨source, sourceLineage, reversed⟩ := isPath
    obtain ⟨last, older, run⟩ : ∃ last older, (label :: labels).reverse = last :: older :=
      List.exists_cons_of_ne_nil (by simp)
    have newest : source = later.reverse ++ entry :: last ::
        (older ++ (earlier ++ first :: rest).reverse) := by
      rw [← List.cons_append, ← run, ← List.reverse_reverse source, ← reversed, parts]
      simp
    rw [newest] at sourceLineage
    have followed : parentEntry (entriesById manager.entries) entry = some last :=
      sourceLineage.parent_eq
    have inRun : last ∈ label :: labels := by
      rw [← List.mem_reverse, run]
      exact List.mem_cons_self
    have present : last ∈ path := by
      rw [parts, ← List.cons_append]
      exact List.mem_append_right _ (List.mem_append_left _ inRun)
    exact parentEntry_of_label distinct drawn timestamp unadopted copied present
      (between.cons labelled last inRun) (parentEntry_eq_some followed).2
  have read : entry ∈ line := by
    rw [← same] at copied
    exact List.mem_reverse.mp (mem_withoutLabels.mp copied).1
  obtain ⟨newer, rfl⟩ := lineage.eq_last read root
  have heads : entry :: withoutLabels newer.reverse =
      first :: withoutLabels (rest ++ label :: (labels ++ entry :: later)) := by
    calc
      entry :: withoutLabels newer.reverse = withoutLabels (newer ++ [entry]).reverse := by
        rw [List.reverse_append, List.reverse_singleton, List.singleton_append,
          withoutLabels_cons, unlabelled, if_neg nofun]
      _ = withoutLabels path := same
      _ = _ := by
        rw [parts, List.append_assoc, withoutLabels_append, leads.withoutLabels, List.nil_append,
          List.cons_append, withoutLabels_cons, kept, if_neg nofun]
  obtain rfl : entry = first := (List.cons.inj heads).1
  rw [parts, List.map_append, List.nodup_append] at distinct
  exact distinct.2.2 entry.id (List.mem_map_of_mem (by simp)) entry.id
    (List.mem_map_of_mem (by simp)) rfl

/-- A copy preserves a branch only where the labels are aside and no copied entry follows a new label;
that is enough where no checkpoint refers to a label the branch starts with. -/
theorem branch_copy_preserves_of_labels_aside (env : Platform)
    (history : List (SessionManager × SessionOperation)) (manager : SessionManager)
    (leafId : String) (path : List SessionEntry) (labelIds : List String)
    (timestamp : String → String) (run : SessionRun env history manager)
    (known : ∃ entry ∈ manager.entries, entry.id = leafId)
    (source : manager.getBranch (some leafId) = .ok path)
    (drawn : LabelIdsDrawn manager path labelIds) :
    (CopyPreserves env manager leafId labelIds timestamp →
      LabelsAside path ∧ Unadopted path labelIds) ∧
    (LabelsAside path → Unadopted path labelIds → Unreferred (leadingLabels path) path →
      CopyPreserves env manager leafId labelIds timestamp) := by
  have formed := wellFormed_of_run run
  have leaf : Known manager.entries (some leafId) := by
    rintro _ ⟨⟩
    exact known
  obtain ⟨other, isPath⟩ := formed.grown.exists_path (some leafId)
  have branch : manager.getBranch (some leafId) = .ok other := formed.getBranch leaf isPath
  obtain rfl : other = path := Except.ok.inj (branch.symm.trans source)
  exact ⟨fun preserves => ⟨preserves.labelsAside formed leaf isPath drawn,
      preserves.unadopted formed leaf isPath drawn⟩,
    copyPreserves_of_labelsAside formed leaf isPath drawn⟩

/-! ## A label between two messages -/

def firstMessage : SessionManager :=
  SessionManager.initial.appendEntries plainPlatform none [givenDraft "a" (userMessage "First")]

/-- The manager after its message is labelled. -/
def labelledMessage : SessionManager :=
  firstMessage.appendEntries plainPlatform (some "a") [givenDraft "l" (.label "a" (some "start"))]

/-- The manager after another message. -/
def answeredLabel : SessionManager :=
  labelledMessage.appendEntries plainPlatform (some "l") [givenDraft "b" (userMessage "Second")]

def labelHistory : List (SessionManager × SessionOperation) :=
  [(.initial, .append [givenDraft "a" (userMessage "First")]),
    (firstMessage, .appendLabelChange "l" "2026-01-01T00:00:00.000Z" "a" (some "start"))]

theorem label_run : SessionRun plainPlatform labelHistory labelledMessage := by
  have first : SessionStep plainPlatform .initial
      (.append [givenDraft "a" (userMessage "First")]) firstMessage :=
    .append (by unfold Fresh; decide) (by simp [givenDraft, userMessage])
      (by simp [givenDraft, userMessage])
  have labelled : SessionStep plainPlatform firstMessage
      (.appendLabelChange "l" "2026-01-01T00:00:00.000Z" "a" (some "start")) labelledMessage :=
    .appendLabelChange (by unfold Fresh; decide) rfl
  exact .extend (.extend (.start _) first) labelled

theorem answered_run :
    SessionRun plainPlatform
      (labelHistory ++ [(labelledMessage, .append [givenDraft "b" (userMessage "Second")])])
      answeredLabel :=
  label_run.extend (.append (by unfold Fresh; decide) (by simp [givenDraft, userMessage])
    (by simp [givenDraft, userMessage]))

/-- The copy of a message that follows a label loses what precedes the label. -/
theorem label_cuts_the_copied_branch :
    ¬∀ env history manager leafId path labelIds timestamp, SessionRun env history manager →
      (∃ entry ∈ manager.entries, entry.id = leafId) →
        manager.getBranch (some leafId) = .ok path → LabelIdsDrawn manager path labelIds →
          CopyPreserves env manager leafId labelIds timestamp := by
  intro preserved
  have drawn : LabelIdsDrawn answeredLabel answeredLabel.entries ["k"] :=
    ⟨by unfold Fresh; decide, rfl⟩
  obtain ⟨copy, source, copied, created, branch, reads, same, -⟩ :=
    preserved plainPlatform _ answeredLabel "b" answeredLabel.entries ["k"] (fun _ => "")
      answered_run ⟨_, List.mem_of_getLast? rfl, rfl⟩ rfl drawn
  obtain rfl := Except.ok.inj created
  obtain rfl := Except.ok.inj branch
  obtain rfl := Except.ok.inj reads
  have lengths := congrArg List.length same
  revert lengths
  decide

/-- The copy of a labelled message preserves it. -/
theorem labelled_message_is_copied :
    CopyPreserves plainPlatform labelledMessage "l" ["k"] fun _ => "" := by
  refine (branch_copy_preserves_of_labels_aside plainPlatform labelHistory labelledMessage "l"
    labelledMessage.entries ["k"] _ label_run ⟨_, List.mem_of_getLast? rfl, rfl⟩ rfl
    ⟨by unfold Fresh; decide, rfl⟩).2 ?_ ?_ ?_
  · intro before label after parts labelled
    right
    have lengths := congrArg List.length parts
    rw [List.length_append, List.length_cons] at lengths
    change 2 = before.length + (after.length + 1) at lengths
    cases after with
    | nil => exact fun _ member => nomatch member
    | cons entry later =>
        obtain rfl : before = [] := List.length_eq_zero_iff.mp (by simp at lengths; omega)
        obtain rfl := (List.cons.inj parts).1
        cases labelled
  · intro entry copied parentId follows
    obtain rfl := List.mem_singleton.mp (copied : entry ∈ [_])
    cases follows
  · exact fun label leading => nomatch leading

end PiAdaptative.Session
