import PiAdaptative.Session.Branches
import PiAdaptative.Session.Sections

/-!
# Labels do not matter to a context

The context of a path stays the same when label entries before and after its other entries are left
out, as long as no checkpoint refers to one of them.
-/

namespace PiAdaptative.Session

open SessionManager (isLabel withoutLabels)

variable {env : Platform} {lookup other : Lookup} {entry : SessionEntry}
variable {path leading trailing : List SessionEntry}

def Labels (entries : List SessionEntry) : Prop := ∀ entry ∈ entries, isLabel entry = true

theorem isLabel_eq_true :
    isLabel entry = true ↔ ∃ targetId label, entry.body = .label targetId label := by
  unfold isLabel
  split
  next body => simp [body]
  next unlabelled =>
    simp only [Bool.false_eq_true, false_iff, not_exists]
    exact fun targetId label body => unlabelled targetId label body

theorem eq_of_isLabel (label : isLabel entry = true) :
    ∃ id parentId timestamp targetId text,
      entry = ⟨id, parentId, timestamp, .label targetId text⟩ := by
  obtain ⟨targetId, text, body⟩ := isLabel_eq_true.mp label
  exact ⟨entry.id, entry.parentId, entry.timestamp, targetId, text, by rw [← body]⟩

theorem label_plain (labels : isLabel entry = true) :
    compactionOf entry = none ∧ transientOf entry = none ∧
      sessionContextMessage env entry = none ∧ readPreparedSummary entry = none ∧
      blocksPrepared entry = false := by
  obtain ⟨targetId, label, body⟩ := isLabel_eq_true.mp labels
  simp [compactionOf, transientOf, sessionContextMessage, readPreparedSummary, blocksPrepared, body]

theorem Labels.plain (labels : Labels leading) : ∀ entry ∈ leading, compactionOf entry = none := by
  intro entry member
  obtain ⟨_, _, _, _, _, rfl⟩ := eq_of_isLabel (labels entry member)
  rfl

theorem Labels.foldl_eq {α : Type} (labels : Labels leading) {step : α → SessionEntry → α}
    (ignored : ∀ state entry, isLabel entry = true → step state entry = state) (state : α) :
    leading.foldl step state = state := by
  induction leading with
  | nil => rfl
  | cons entry leading ih =>
      rw [List.foldl_cons, ignored state entry (labels entry List.mem_cons_self)]
      exact ih fun other member => labels other (List.mem_cons_of_mem _ member)

theorem Labels.contextItems (labels : Labels leading) : contextItems env leading = [] := by
  rw [Session.contextItems, List.filterMap_eq_nil_iff]
  intro entry member
  have silent : sessionContextMessage env entry = none :=
    (label_plain (labels entry member)).2.2.1
  simp [contextItem?, silent]

/-- A lookup that finds no labels. -/
def unlabelled (lookup : Lookup) : Lookup :=
  fun id => (lookup id).filter fun entry => !isLabel entry

variable (lookup : Lookup)

variable (id : String)

theorem reads_unlabelled {reads : Option SessionEntry → Bool} (absent : reads none = false)
    (labels : ∀ entry, isLabel entry = true → reads (some entry) = false) :
    reads (unlabelled lookup id) = reads (lookup id) := by
  unfold unlabelled
  cases lookup id with
  | none => rfl
  | some entry =>
      cases label : isLabel entry with
      | false => simp [Option.filter, label]
      | true => simp [Option.filter, label, absent, labels entry label]

theorem isFinalAnswer_unlabelled :
    ParentInputIndex.isFinalAnswer (unlabelled lookup id) =
      ParentInputIndex.isFinalAnswer (lookup id) := by
  apply reads_unlabelled lookup id rfl
  intro entry label
  obtain ⟨_, _, _, _, _, rfl⟩ := eq_of_isLabel label
  rfl

theorem isOwnerInput_unlabelled (id ownerInputId : String) :
    ParentInputIndex.isOwnerInput ownerInputId (unlabelled lookup id) =
      ParentInputIndex.isOwnerInput ownerInputId (lookup id) := by
  apply reads_unlabelled lookup id rfl
  intro entry label
  obtain ⟨_, _, _, _, _, rfl⟩ := eq_of_isLabel label
  rfl

theorem savedText_unlabelled :
    ParentInputIndex.savedText (unlabelled lookup id) =
      ParentInputIndex.savedText (lookup id) := by
  unfold unlabelled
  cases lookup id with
  | none => rfl
  | some entry =>
      cases label : isLabel entry with
      | false => simp [Option.filter, label]
      | true =>
          obtain ⟨_, _, _, _, _, rfl⟩ := eq_of_isLabel label
          rfl

theorem bindingOwner_unlabelled :
    ParentInputIndex.bindingOwner (unlabelled lookup id) =
      ParentInputIndex.bindingOwner (lookup id) := by
  unfold unlabelled
  cases lookup id with
  | none => rfl
  | some entry =>
      cases label : isLabel entry with
      | false => simp [Option.filter, label]
      | true =>
          obtain ⟨_, _, _, _, _, rfl⟩ := eq_of_isLabel label
          rfl

variable (index : ParentInputIndex)

variable (lookup : Lookup)

theorem consumption_unlabelled (terminal : SessionEntry) :
    index.consumption (unlabelled lookup) terminal = index.consumption lookup terminal := by
  unfold ParentInputIndex.consumption
  simp only [isFinalAnswer_unlabelled, bindingOwner_unlabelled]

theorem completeWake_unlabelled (terminal : SessionEntry) :
    index.completeWake (unlabelled lookup) terminal = index.completeWake lookup terminal := by
  unfold ParentInputIndex.completeWake
  cases ParentInputIndex.completedTerminal terminal with
  | none => rfl
  | some answered =>
      obtain ⟨requestId, answerId⟩ := answered
      simp only [unlabelled]
      cases index.requestWake requestId with
      | none => rfl
      | some wake =>
          cases lookup answerId with
          | none => rfl
          | some entry =>
              cases label : isLabel entry with
              | false => simp [Option.filter, label]
              | true =>
                  obtain ⟨_, _, _, _, _, rfl⟩ := eq_of_isLabel label
                  rfl

theorem assertNotes_unlabelled (chars : Nat) (items : List ParentWakeInput) :
    index.assertNotes (unlabelled lookup) chars items = index.assertNotes lookup chars items := by
  induction items generalizing chars with
  | nil => rfl
  | cons item items ih =>
      unfold ParentInputIndex.assertNotes
      simp only [savedText_unlabelled, ih]

theorem bindRequest_unlabelled (entryId : String) (binding : Option ParentInputRequestBinding) :
    index.bindRequest (unlabelled lookup) entryId binding =
      index.bindRequest lookup entryId binding := by
  unfold ParentInputIndex.bindRequest ParentInputIndex.bindOwner
  simp only [isOwnerInput_unlabelled, assertNotes_unlabelled]

theorem apply_unlabelled (entry : SessionEntry) :
    index.apply env (unlabelled lookup) entry = index.apply env lookup entry := by
  unfold ParentInputIndex.apply ParentInputIndex.applyTerminal
  simp only [bindRequest_unlabelled, completeWake_unlabelled, consumption_unlabelled]

theorem applyEntries_unlabelled (entries : List SessionEntry) (index : ParentInputIndex) :
    applyEntries env (unlabelled lookup) entries index = applyEntries env lookup entries index := by
  induction entries generalizing index with
  | nil => rfl
  | cons entry entries ih => simp only [applyEntries, apply_unlabelled, ih]

variable (before after : List SessionEntry)

theorem entriesById_split (id : String) :
    entriesById (before ++ after) id = (entriesById after id).or (entriesById before id) := by
  simp only [entriesById, List.reverse_append, List.find?_append]

theorem Labels.unlabelled (labels : Labels leading) :
    unlabelled (entriesById leading) = fun _ => none := by
  funext id
  unfold Session.unlabelled
  cases found : entriesById leading id with
  | none => rfl
  | some entry =>
      have member := List.mem_reverse.mp (List.mem_of_find?_eq_some found)
      simp [Option.filter, labels entry member]

theorem apply_label (label : isLabel entry = true) :
    index.apply env lookup entry = .ok (index.dropAwaited none) := by
  obtain ⟨_, _, _, _, _, rfl⟩ := eq_of_isLabel label
  rfl

theorem applyEntries_append (index : ParentInputIndex) :
    applyEntries env lookup (before ++ after) index =
      applyEntries env lookup before index >>= applyEntries env lookup after := by
  induction before generalizing index with
  | nil => rfl
  | cons entry before ih =>
      rw [List.cons_append]
      unfold applyEntries
      cases index.apply env lookup entry with
      | error reason => rfl
      | ok next => exact ih next

/-- Labels leave what waits and what a wake selects. -/
theorem Labels.applyEntries (labels : Labels leading) (lookup : Lookup)
    (index : ParentInputIndex) :
    ∃ next, applyEntries env lookup leading index = .ok next ∧
      (next = index ∨ next = index.dropAwaited none) := by
  induction leading generalizing index with
  | nil => exact ⟨index, rfl, .inl rfl⟩
  | cons entry leading ih =>
      obtain ⟨next, applied, same⟩ := ih
        (fun other member => labels other (List.mem_cons_of_mem _ member)) (index.dropAwaited none)
      refine ⟨next, ?_, .inr ?_⟩
      · unfold Session.applyEntries
        rw [apply_label index lookup (labels entry List.mem_cons_self)]
        exact applied
      · rcases same with rfl | rfl <;> rfl

/-- The parent inputs that wait are those of a path without labels around it. -/
theorem parentInputContextIds_labels (leads : Labels leading) (trails : Labels trailing)
    (distinct : ((leading ++ path ++ trailing).map SessionEntry.id).Nodup) :
    parentInputContextIds env (leading ++ path ++ trailing) = parentInputContextIds env path := by
  have lookups : unlabelled (entriesById (leading ++ path ++ trailing)) =
      unlabelled (entriesById path) := by
    funext id
    have before := congrFun leads.unlabelled id
    have after := congrFun trails.unlabelled id
    unfold unlabelled at before after ⊢
    rw [entriesById_split, entriesById_split]
    cases last : entriesById trailing id with
    | some label =>
        rw [last] at after
        rw [Option.some_or, after]
        cases inside : entriesById path id with
        | none => rfl
        | some entry =>
            obtain ⟨member, rfl⟩ := entriesById_eq_some inside
            obtain ⟨labelled, same⟩ := entriesById_eq_some last
            rw [List.map_append, List.nodup_append] at distinct
            refine absurd same.symm (distinct.2.2 _ ?_ _ (List.mem_map_of_mem labelled))
            exact List.mem_map_of_mem (List.mem_append_right _ member)
    | none =>
        rw [Option.none_or]
        cases entriesById path id with
        | none => rw [Option.none_or, before, Option.filter_none]
        | some entry => rw [Option.some_or]
  have applied : applyEntries env (entriesById (leading ++ path ++ trailing))
        (leading ++ path ++ trailing) .initial =
      applyEntries env (entriesById path) (leading ++ path ++ trailing) .initial := by
    rw [← applyEntries_unlabelled, lookups, applyEntries_unlabelled]
  unfold parentInputContextIds
  rw [applied, applyEntries_append, applyEntries_append]
  obtain ⟨started, first, same⟩ : ∃ next,
      applyEntries env (entriesById path) leading .initial = .ok next ∧
        (next = .initial ∨ next = ParentInputIndex.dropAwaited .initial none) :=
    leads.applyEntries _ _
  have untouched : started = .initial := by rcases same with rfl | rfl <;> rfl
  rw [first, untouched]
  change (applyEntries env (entriesById path) path .initial >>= _) >>= _ = _
  cases applyEntries env (entriesById path) path .initial with
  | error reason => rfl
  | ok index =>
      obtain ⟨finished, last, ended⟩ : ∃ next,
          applyEntries env (entriesById path) trailing index = .ok next ∧
            (next = index ∨ next = index.dropAwaited none) :=
        trails.applyEntries _ _
      simp only [bind, Except.bind, last]
      rcases ended with rfl | rfl <;> rfl

theorem orElse_eq_or {α : Type} (first second : Option α) :
    (first <|> second) = first.or second := by
  cases first <;> rfl

/-- A checkpoint keeps, covers or starts its scope at an entry, or a prepared summary follows it. -/
def RefersTo (entry : SessionEntry) (id : String) : Prop :=
  (∃ compaction, compactionOf entry = some compaction ∧
    (compaction.firstKeptEntryId = id ∨ compaction.coveredThroughEntryId = some id ∨
      compaction.scopeStartEntryId = some id)) ∨
    readPreparedSummary entry ≠ none ∧ entry.parentId = some id

/-- No entry of a path refers to one of the entries before it. -/
def Unreferred (leading path : List SessionEntry) : Prop :=
  ∀ label ∈ leading, ∀ entry ∈ path, ¬RefersTo entry label.id

theorem recoveredCoveredEntryId_eq_some {summary id : String}
    (found : recoveredCoveredEntryId summary path = some id) :
    ∃ entry ∈ path, readPreparedSummary entry ≠ none ∧ entry.parentId = some id := by
  induction path with
  | nil => cases found
  | cons entry path ih =>
      rw [recoveredCoveredEntryId, orElse_eq_or, Option.or_eq_some_iff] at found
      rcases found with later | ⟨-, here⟩
      · obtain ⟨other, member, prepared⟩ := ih later
        exact ⟨other, List.mem_cons_of_mem _ member, prepared⟩
      · refine ⟨entry, List.mem_cons_self, ?_⟩
        split at here
        next prepared read =>
          split at here
          · exact ⟨by simp [read], (truthy_eq_some.mp here).1⟩
          · cases here
        · cases here

theorem Labels.recovered (labels : Labels leading) (summary : String) :
    recoveredCoveredEntryId summary (leading ++ path) = recoveredCoveredEntryId summary path := by
  induction leading with
  | nil => rfl
  | cons entry leading ih =>
      rw [List.cons_append, recoveredCoveredEntryId,
        ih fun other member => labels other (List.mem_cons_of_mem _ member)]
      have unprepared : readPreparedSummary entry = none := by
        obtain ⟨_, _, _, _, _, rfl⟩ := eq_of_isLabel (labels entry List.mem_cons_self)
        rfl
      rw [unprepared, orElse_eq_or, Option.or_none]

theorem gapEntries_labels (labels : Labels leading) {cut : OriginalUserCut} {entry : SessionEntry}
    (holds : compactionOf entry = some cut.compaction) (unnamed : Unreferred leading [entry])
    (unprepared : Unreferred leading cut.before) :
    gapEntries { cut with before := leading ++ cut.before } = gapEntries cut := by
  have covers : OriginalUserCut.coveredThrough { cut with before := leading ++ cut.before } =
      cut.coveredThrough := by
    unfold OriginalUserCut.coveredThrough
    rw [labels.recovered]
  unfold gapEntries
  rw [covers]
  cases found : cut.coveredThrough with
  | none => rfl
  | some covered =>
      have apart : ∀ label ∈ leading, decide (label.id ≠ covered) = true := by
        intro label member
        rw [decide_eq_true_eq]
        rintro rfl
        rw [OriginalUserCut.coveredThrough, orElse_eq_or, Option.or_eq_some_iff] at found
        rcases found with stated | ⟨-, recovered⟩
        · exact unnamed label member entry (List.mem_singleton_self _)
            (.inl ⟨_, holds, .inr (.inl stated)⟩)
        · obtain ⟨prepared, inside, reads⟩ := recoveredCoveredEntryId_eq_some recovered
          exact unprepared label member prepared inside (.inr reads)
      simp only [List.dropWhile_append_of_pos apart]

theorem originalUserCuts_prepend (before : List SessionEntry) :
    originalUserCuts (leading ++ before) path =
      (originalUserCuts before path).map fun cut =>
        { cut with before := leading ++ cut.before } := by
  induction path generalizing before with
  | nil => rfl
  | cons entry path ih =>
      unfold originalUserCuts
      rw [List.append_assoc, ih, List.map_append]
      cases compactionOf entry with
      | none => rfl
      | some compaction =>
          cases retained : compaction.retention with
          | none => simp [retained]
          | some retention => simp [retained]

theorem Labels.originalUserCuts (labels : Labels leading) (before : List SessionEntry) :
    originalUserCuts before (leading ++ path) = originalUserCuts (before ++ leading) path := by
  induction leading generalizing before with
  | nil => simp
  | cons entry leading ih =>
      rw [List.cons_append]
      have plain : compactionOf entry = none := by
        obtain ⟨_, _, _, _, _, rfl⟩ := eq_of_isLabel (labels entry List.mem_cons_self)
        rfl
      rw [Session.originalUserCuts, plain,
        ih fun other member => labels other (List.mem_cons_of_mem _ member)]
      simp

theorem projectedGapEntries_labels (leads : Labels leading) (trails : Labels trailing)
    (unreferred : Unreferred leading path) :
    projectedGapEntries (leading ++ path ++ trailing) = projectedGapEntries path := by
  rw [projectedGapEntries_append trails.plain]
  unfold projectedGapEntries
  have cuts : originalUserCuts (leading ++ []) path =
      (originalUserCuts [] path).map fun cut => { cut with before := leading ++ cut.before } :=
    originalUserCuts_prepend []
  rw [List.append_nil] at cuts
  rw [leads.originalUserCuts, List.nil_append, cuts, List.foldl_map]
  apply List.foldl_ext
  intro projected cut member
  obtain ⟨earlier, entry, split, before, holds⟩ := mem_originalUserCuts member
  rw [List.nil_append] at before
  have named : Unreferred leading [entry] := fun label inside other same =>
    unreferred label inside other (by rw [split]; simp [List.mem_singleton.mp same])
  have prepared : Unreferred leading cut.before := fun label inside other earlierMember =>
    unreferred label inside other (by rw [split]; simp [before ▸ earlierMember])
  rw [gapEntries_labels leads holds named prepared]

theorem Labels.transientKinds (labels : Labels leading) : transientKinds leading = [] := by
  rw [Session.transientKinds, List.filterMap_eq_nil_iff]
  intro entry member
  obtain ⟨_, _, _, _, _, rfl⟩ := eq_of_isLabel (labels entry member)
  rfl

theorem Labels.carriedRecords (labels : Labels leading) (tail before : List SessionEntry) :
    carriedRecords tail (leading ++ before) = carriedRecords tail before := by
  unfold Session.carriedRecords
  rw [List.foldl_append, labels.foldl_eq]
  intro carriedByKind entry label
  obtain ⟨_, _, _, _, _, rfl⟩ := eq_of_isLabel label
  rfl

theorem Labels.originalUserEntryOf (labels : Labels leading) (retention : CompactionRetention)
    (scope : List SessionEntry) :
    originalUserEntryOf retention (leading ++ scope) = originalUserEntryOf retention scope := by
  unfold Session.originalUserEntryOf
  rw [List.find?_append, List.find?_eq_none.mpr]
  · rfl
  · intro entry member
    obtain ⟨_, _, _, _, _, rfl⟩ := eq_of_isLabel (labels entry member)
    simp

theorem isAmong_append_of_apart {entries others : List SessionEntry}
    (apart : ∀ other ∈ others, other.id ≠ entry.id) :
    isAmong (entries ++ others) entry = isAmong entries entry := by
  unfold isAmong
  rw [List.any_append]
  have none : (others.any fun other => other.id = entry.id) = false := by
    rw [List.any_eq_false]
    intro other member
    simpa using apart other member
  rw [none, Bool.or_false]

theorem Labels.filter (labels : Labels leading) (keep : SessionEntry → Bool) :
    Labels (leading.filter keep) :=
  fun entry member => labels entry (List.mem_of_mem_filter member)

theorem filter_isAmong_labels {scope records later : List SessionEntry}
    (apart : ∀ label ∈ leading, ∀ entry ∈ scope, label.id ≠ entry.id)
    (keep : SessionEntry → Bool) :
    scope.filter (isAmong (records ++ (leading.filter keep ++ later))) =
      scope.filter (isAmong (records ++ later)) := by
  apply List.filter_congr
  intro entry member
  have unnamed : isAmong ([] ++ leading.filter keep) entry = false :=
    isAmong_append_of_apart fun label inside =>
      apart label (List.mem_of_mem_filter inside) entry member
  unfold isAmong at unnamed ⊢
  rw [List.nil_append] at unnamed
  rw [List.any_append, List.any_append, List.any_append, unnamed, Bool.false_or]

variable {checkpoint : Checkpoint}

/-- Labels around a section emit nothing and change nothing. -/
theorem sectionItems_labels (env : Platform) (pending : List String) (before : List SessionEntry)
    {scope : List SessionEntry} (leads : Labels leading) (trails : Labels trailing)
    (holds : compactionOf checkpoint.entry = some checkpoint.compaction)
    (apart : ∀ label ∈ leading, ∀ entry ∈ scope, label.id ≠ entry.id)
    (unreferred : Unreferred leading (scope ++ checkpoint.entry :: checkpoint.after)) :
    sectionItems env (.compacted
        { before
          entry := checkpoint.entry
          compaction := checkpoint.compaction
          after := checkpoint.after ++ trailing }
        (selectCompactedContext pending
          { before
            entry := checkpoint.entry
            compaction := checkpoint.compaction
            after := checkpoint.after ++ trailing } (leading ++ scope))) =
      sectionItems env (.compacted checkpoint
        (selectCompactedContext pending checkpoint scope)) := by
  have unkept : ∀ label ∈ leading,
      decide (label.id ≠ checkpoint.compaction.firstKeptEntryId) = true := by
    intro label member
    rw [decide_eq_true_eq]
    intro kept
    exact unreferred label member checkpoint.entry (by simp) (.inl ⟨_, holds, .inl kept.symm⟩)
  have gaps := projectedGapEntries_labels leads trails unreferred
  simp only [List.append_assoc, List.cons_append] at gaps
  have records (tail before : List SessionEntry) :
      carriedRecords (tail ++ checkpoint.entry :: (checkpoint.after ++ trailing))
          (leading ++ before) =
        carriedRecords (tail ++ checkpoint.entry :: checkpoint.after) before := by
    rw [leads.carriedRecords]
    apply carriedRecords_congr
    intro kind _
    rw [← List.cons_append, ← List.append_assoc, transientKinds_append, trails.transientKinds,
      List.append_nil]
  simp only [selectCompactedContext, List.takeWhile_append_of_pos unkept,
    List.dropWhile_append_of_pos unkept, records, List.append_assoc, gaps,
    leads.originalUserEntryOf, sectionItems, summaryItem, contextItems_append, trails.contextItems,
    List.append_nil, List.filter_append, filter_isAmong_labels apart, (leads.filter _).contextItems,
    List.nil_append]

theorem cutAtLast_prepend {id : String} (unnamed : ∀ entry ∈ leading, entry.id ≠ id) :
    cutAtLast id (leading ++ path) =
      (cutAtLast id path).map fun cut => (leading ++ cut.1, cut.2) := by
  induction leading with
  | nil => simp
  | cons entry leading ih =>
      rw [List.cons_append, cutAtLast,
        ih fun other member => unnamed other (List.mem_cons_of_mem _ member)]
      cases cutAtLast id path with
      | none => simp [unnamed entry List.mem_cons_self]
      | some cut => rfl

theorem compactionScope_labels
    (holds : compactionOf checkpoint.entry = some checkpoint.compaction)
    (unreferred : Unreferred leading [checkpoint.entry]) :
    compactionScope { checkpoint with before := leading ++ checkpoint.before } =
      (compactionScope checkpoint).map fun cut =>
        if checkpoint.compaction.scopeStartEntryId = none then ([], leading ++ cut.2)
        else (leading ++ cut.1, cut.2) := by
  unfold compactionScope
  cases stated : checkpoint.compaction.scopeStartEntryId with
  | none => rfl
  | some scopeStartEntryId =>
      have unnamed : ∀ label ∈ leading, label.id ≠ scopeStartEntryId := by
        rintro label member rfl
        exact unreferred label member checkpoint.entry (List.mem_singleton_self _)
          (.inl ⟨_, holds, .inr (.inr stated)⟩)
      by_cases here : checkpoint.entry.id = scopeStartEntryId
      · simp [here, Except.map]
      · simp only [here, if_false, cutAtLast_prepend unnamed]
        cases cutAtLast scopeStartEntryId checkpoint.before <;> rfl

theorem latestCheckpoint_labels (path : List SessionEntry) (leads : Labels leading) (trails : Labels trailing) :
    latestCheckpoint (leading ++ path ++ trailing) =
      (latestCheckpoint path).map fun checkpoint =>
        { before := leading ++ checkpoint.before
          entry := checkpoint.entry
          compaction := checkpoint.compaction
          after := checkpoint.after ++ trailing } := by
  rw [latestCheckpoint_append trails.plain, latestCheckpoint_prepend leads.plain, Option.map_map]
  rfl

/-- Labels around a path leave its items. -/
theorem pathItems_labels {pending : List String} (leads : Labels leading) (trails : Labels trailing)
    (apart : ∀ label ∈ leading, ∀ entry ∈ path, label.id ≠ entry.id)
    (unreferred : Unreferred leading path) :
    pathItems env pending (leading ++ path ++ trailing) = pathItems env pending path := by
  induction within : path.length using Nat.strongRecOn generalizing path trailing with
  | _ length ih =>
      have latest := latestCheckpoint_labels path leads trails
      cases found : latestCheckpoint path with
      | none =>
          rw [found] at latest
          rw [pathItems_raw found, pathItems_raw latest, contextItems_append, contextItems_append,
            leads.contextItems, trails.contextItems, List.nil_append, List.append_nil]
      | some checkpoint =>
          obtain ⟨split, holds, -⟩ := latestCheckpoint_eq_some found
          rw [found] at latest
          have cuts : compactionScope
                { before := leading ++ checkpoint.before
                  entry := checkpoint.entry
                  compaction := checkpoint.compaction
                  after := checkpoint.after ++ trailing } =
              (compactionScope checkpoint).map fun cut =>
                if checkpoint.compaction.scopeStartEntryId = none then ([], leading ++ cut.2)
                else (leading ++ cut.1, cut.2) :=
            compactionScope_labels holds fun label member entry inside =>
              unreferred label member entry (by rw [split]; simp [List.mem_singleton.mp inside])
          rw [pathItems_checkpoint found, pathItems_checkpoint latest, cuts]
          cases cut : compactionScope checkpoint with
          | error reason => rfl
          | ok sides =>
              obtain ⟨outer, scope⟩ := sides
              rw [compactionScope_eq_ok cut] at split
              have mem_scope : ∀ entry ∈ scope, entry ∈ path := by
                intro entry member
                rw [split]
                simp [member]
              have mem_outer : ∀ entry ∈ outer, entry ∈ path := by
                intro entry member
                rw [split]
                simp [member]
              have checkpointed : ∀ entry ∈ checkpoint.entry :: checkpoint.after, entry ∈ path := by
                intro entry member
                rw [split]
                exact List.mem_append_right _ member
              by_cases whole : checkpoint.compaction.scopeStartEntryId = none
              · obtain rfl : outer = [] := by
                  rw [compactionScope, whole] at cut
                  exact (Prod.mk.inj (Except.ok.inj cut)).1.symm
                have same := sectionItems_labels env pending (leading ++ checkpoint.before) leads trails
                  holds
                  (fun label inside entry member =>
                    apart label inside entry (mem_scope entry member))
                  (fun label inside entry member => unreferred label inside entry
                    ((List.mem_append.mp member).elim (mem_scope entry) (checkpointed entry)))
                simp only [Except.map, bind, Except.bind, whole, if_true, same]
              · have shorter : outer.length < length := by
                  rw [← within, split]
                  simp only [List.length_append, List.length_cons]
                  omega
                have around : pathItems env pending (leading ++ outer ++ []) =
                    pathItems env pending outer :=
                  ih outer.length shorter (fun _ member => nomatch member)
                    (fun label inside entry member =>
                      apart label inside entry (mem_outer entry member))
                    (fun label inside entry member =>
                      unreferred label inside entry (mem_outer entry member)) rfl
                have unlabelled : Labels [] := fun _ member => absurd member List.not_mem_nil
                have unnamed : Unreferred [] (scope ++ checkpoint.entry :: checkpoint.after) :=
                  fun _ member => absurd member List.not_mem_nil
                have same := sectionItems_labels env pending (leading ++ checkpoint.before) unlabelled
                  trails holds (fun _ member => absurd member List.not_mem_nil) unnamed
                rw [List.append_nil] at around
                rw [List.nil_append] at same
                simp only [Except.map, bind, Except.bind, whole, if_false, around, same]

theorem pathThinkingLevel_labels (leads : Labels leading) (trails : Labels trailing) :
    pathThinkingLevel (leading ++ path ++ trailing) = pathThinkingLevel path := by
  unfold pathThinkingLevel
  rw [List.foldl_append, List.foldl_append, leads.foldl_eq, trails.foldl_eq] <;>
    rintro level entry label <;>
    obtain ⟨_, _, _, _, _, rfl⟩ := eq_of_isLabel label <;>
    rfl

theorem pathModel_labels (leads : Labels leading) (trails : Labels trailing) :
    pathModel (leading ++ path ++ trailing) = pathModel path := by
  unfold pathModel
  rw [List.foldl_append, List.foldl_append, leads.foldl_eq, trails.foldl_eq] <;>
    rintro model entry label <;>
    obtain ⟨_, _, _, _, _, rfl⟩ := eq_of_isLabel label <;>
    rfl

/-- The context of a path is the context of its entries other than the labels around them. -/
theorem pathContext_labels (leads : Labels leading) (trails : Labels trailing)
    (distinct : ((leading ++ path ++ trailing).map SessionEntry.id).Nodup)
    (unreferred : Unreferred leading path) :
    pathContext env (leading ++ path ++ trailing) = pathContext env path := by
  have apart : ∀ label ∈ leading, ∀ entry ∈ path, label.id ≠ entry.id := by
    intro label inside entry member
    rw [List.append_assoc, List.map_append, List.nodup_append] at distinct
    exact distinct.2.2 _ (List.mem_map_of_mem inside) _
      (List.mem_map_of_mem (List.mem_append_left _ member))
  unfold pathContext
  rw [sessionContextItems_eq, sessionContextItems_eq,
    parentInputContextIds_labels leads trails distinct, pathThinkingLevel_labels leads trails,
    pathModel_labels leads trails]
  simp only [pathItems_labels leads trails apart unreferred]

end PiAdaptative.Session
