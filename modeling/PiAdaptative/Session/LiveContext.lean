import PiAdaptative.Session.Branches
import PiAdaptative.Session.Sections

/-!
# The live context

A manager extends its materialised context by each appended entry.  That is the rebuilt context of the
longer path unless the entry changes what the context holds before the latest checkpoint: a record of
a kind that the checkpoint carries makes the carried records stale, and a parent input that settles
waits no longer.
-/

namespace PiAdaptative.Session

open SessionManager (EntryDraft chain extendContext)

variable {env : Platform} {entry : SessionEntry} {path : List SessionEntry}
variable {manager before after : SessionManager} {operation : SessionOperation}

/-- An entry changes nothing that the context of a path holds: its parent inputs are readable, the
same inputs before the latest checkpoint wait, and it records no kind that the checkpoint carries. -/
def ExtendsContext (env : Platform) (path : List SessionEntry) (entry : SessionEntry) : Prop :=
  ∃ pending next, parentInputContextIds env path = .ok pending ∧
    parentInputContextIds env (path ++ [entry]) = .ok next ∧
    ∀ checkpoint, latestCheckpoint path = some checkpoint →
      PendingAgree pending next checkpoint.before ∧
        ∀ outer scope, compactionScope checkpoint = .ok (outer, scope) →
          ∀ kind ∈ transientKinds [entry],
            kind ∈ transientKinds (beforeKept checkpoint.compaction scope) →
              kind ∈ transientKinds (keptAndAfter checkpoint scope)

theorem selectCompactedContext_append {pending next : List String} {checkpoint : Checkpoint}
    {scope : List SessionEntry} (plain : compactionOf entry = none)
    (agree : PendingAgree pending next scope)
    (carried : ∀ kind ∈ transientKinds [entry],
      kind ∈ transientKinds (beforeKept checkpoint.compaction scope) →
        kind ∈ transientKinds (keptAndAfter checkpoint scope)) :
    selectCompactedContext next { checkpoint with after := checkpoint.after ++ [entry] } scope =
      selectCompactedContext pending checkpoint scope := by
  rw [selectCompactedContext_congr agree]
  have gaps : projectedGapEntries ((scope ++ checkpoint.entry :: checkpoint.after) ++ [entry]) =
      projectedGapEntries (scope ++ checkpoint.entry :: checkpoint.after) :=
    projectedGapEntries_append (by simpa using plain)
  have records : carriedRecords (keptAndAfter checkpoint scope ++ [entry])
        (beforeKept checkpoint.compaction scope) =
      carriedRecords (keptAndAfter checkpoint scope)
        (beforeKept checkpoint.compaction scope) := by
    apply carriedRecords_congr
    intro kind member
    rw [transientKinds_append, Bool.eq_iff_iff, List.contains_iff_mem, List.contains_iff_mem,
      List.mem_append]
    exact ⟨fun either => either.elim id fun new => carried kind new member, .inl⟩
  unfold keptAndAfter beforeKept at records
  simp only [List.append_assoc, List.cons_append] at gaps records
  simp only [selectCompactedContext, gaps, records]

/-- An appended entry adds its item to the items of a path. -/
theorem sessionContextItems_append {items : List SessionContextItem}
    (plain : compactionOf entry = none) (extends_ : ExtendsContext env path entry)
    (built : sessionContextItems env path = .ok items) :
    sessionContextItems env (path ++ [entry]) = .ok (items ++ contextItems env [entry]) := by
  obtain ⟨pending, next, waiting, waitingNext, kept⟩ := extends_
  rw [sessionContextItems_eq, waiting] at built
  rw [sessionContextItems_eq, waitingNext]
  change pathItems env pending path = .ok items at built
  change pathItems env next (path ++ [entry]) = _
  have latest : latestCheckpoint (path ++ [entry]) =
      (latestCheckpoint path).map fun checkpoint =>
        { checkpoint with after := checkpoint.after ++ [entry] } :=
    latestCheckpoint_append (by simpa using plain)
  cases found : latestCheckpoint path with
  | none =>
      rw [found] at latest
      rw [pathItems_raw found] at built
      rw [pathItems_raw latest, contextItems_append, Except.ok.inj built]
  | some checkpoint =>
      obtain ⟨agree, carried⟩ := kept checkpoint found
      rw [found] at latest
      rw [pathItems_checkpoint found] at built
      rw [pathItems_checkpoint latest]
      simp only [bind_eq_ok, pure_eq_ok] at built ⊢
      obtain ⟨⟨outer, scope⟩, cut, earlier, outside, rfl⟩ := built
      have split := compactionScope_eq_ok cut
      have inside : PendingAgree pending next scope := fun other member =>
        agree other (by rw [split]; simp [member])
      have before : PendingAgree next pending outer := fun other member =>
        (agree other (by rw [split]; simp [member])).symm
      refine ⟨(outer, scope), cut, earlier, ?_, ?_⟩
      · rw [pathItems_congr before]
        exact outside
      · rw [selectCompactedContext_append plain inside (carried outer scope cut)]
        simp [sectionItems, contextItems_append, summaryItem]

theorem pathContext_append {context : SessionContext} (plain : compactionOf entry = none)
    (extends_ : ExtendsContext env path entry) (built : pathContext env path = .ok context) :
    pathContext env (path ++ [entry]) = .ok (extendContext env context entry) := by
  simp only [pathContext, bind_eq_ok, pure_eq_ok] at built ⊢
  obtain ⟨items, listed, rfl⟩ := built
  refine ⟨_, sessionContextItems_append plain extends_ listed, ?_⟩
  have messages : (contextItems env [entry]).map SessionContextItem.message =
      (sessionContextMessage env entry).toList := by
    cases found : sessionContextMessage env entry <;> simp [contextItems, contextItem?, found]
  unfold extendContext pathThinkingLevel pathModel
  rw [List.map_append, messages]
  cases body : entry.body <;> simp [sessionContextMessage, body]

/-- The materialised context is the context of a path. -/
def LiveContext (env : Platform) (manager : SessionManager) : Prop :=
  ∀ cached, manager.sessionContextCache = some cached →
    Known manager.entries cached.leafId ∧
      ∃ path, IsPath manager.entries cached.leafId path ∧
        pathContext env path = .ok cached.context

/-- Entries of a chain extend the context of the path they follow, up to a compaction. -/
def ChainExtends (env : Platform) (path chained : List SessionEntry) : Prop :=
  ∀ earlier entry later, chained = earlier ++ entry :: later →
    (∀ other ∈ earlier ++ [entry], compactionOf other = none) →
      ExtendsContext env (path ++ earlier) entry

/-- The entries that an operation appends, with the leaf they follow. -/
def appended (manager : SessionManager) :
    SessionOperation → Option String × List SessionEntry
  | .append drafts => (manager.leafId, chain manager.leafId drafts)
  | .appendLabelChange id timestamp targetId label =>
      (manager.leafId, chain manager.leafId [⟨id, timestamp, .label targetId label⟩])
  | .branchWithSummary branchFromId id timestamp summary =>
      (branchFromId,
        chain branchFromId
          [⟨id, timestamp, .branchSummary (branchFromId.getD "root") summary⟩])
  | .branch _ | .resetLeaf | .buildSessionContext => (none, [])

/-- Where a materialised context is advanced, the appended entries extend it. -/
def KeepsLive (env : Platform) (manager : SessionManager) (operation : SessionOperation) : Prop :=
  ∀ cached path, manager.sessionContextCache = some cached →
    cached.leafId = (appended manager operation).1 →
      IsPath manager.entries cached.leafId path →
        ChainExtends env path (appended manager operation).2

theorem LiveContext.of_no_cache (absent : manager.sessionContextCache = none) :
    LiveContext env manager := by
  intro cached found
  cases absent.symm.trans found

/-- A published entry keeps the context live if it extends it. -/
theorem LiveContext.publish (formed : WellFormed manager) (live : LiveContext env manager)
    (publishable : Publishable manager.entries entry)
    (extends_ : ∀ cached path, manager.sessionContextCache = some cached →
      cached.leafId = entry.parentId → IsPath manager.entries cached.leafId path →
        compactionOf entry = none → ExtendsContext env path entry) :
    LiveContext env (manager.publish env entry) := by
  intro cached found
  simp only [SessionManager.publish, SessionManager.advanceSessionContextCache] at found
  split at found
  · cases found
  next earlier present =>
    split at found
    · cases found
    next advanced =>
      obtain ⟨following, plain⟩ := not_or.mp advanced
      rw [not_not] at following
      rw [Bool.not_eq_true, Option.isSome_eq_false_iff, Option.isNone_iff_eq_none] at plain
      obtain rfl := Option.some.inj found
      obtain ⟨known, path, isPath, built⟩ := live earlier present
      have extended := extends_ earlier path present following isPath plain
      rw [following] at isPath
      refine ⟨fun id same => ⟨entry, by simp [SessionManager.publish], Option.some.inj same⟩,
        path ++ [entry], ?_, pathContext_append plain extended built⟩
      exact isPath.append formed.grown publishable.distinct publishable.rooted

/-- A chain of entries keeps the context live if it extends it. -/
theorem LiveContext.appendEntries {parentId : Option String} {drafts : List EntryDraft}
    (formed : WellFormed manager) (live : LiveContext env manager)
    (known : Known manager.entries parentId)
    (fresh : Fresh manager.entries (drafts.map EntryDraft.id))
    (extends_ : ∀ cached path, manager.sessionContextCache = some cached →
      cached.leafId = parentId → IsPath manager.entries cached.leafId path →
        ChainExtends env path (chain parentId drafts)) :
    LiveContext env (manager.appendEntries env parentId drafts) := by
  induction drafts generalizing manager parentId with
  | nil => exact live
  | cons draft drafts ih =>
      obtain ⟨publishable, rest⟩ := publishable_of_fresh known fresh
      refine ih (formed.publish publishable) ?_ known_last rest ?_
      · refine live.publish formed publishable ?_
        intro cached path present following isPath plain
        have first := extends_ cached path present following isPath [] _ _ rfl (by simpa using plain)
        simpa using first
      · intro cached path present following isPath earlier entry later split plain
        simp only [SessionManager.publish, SessionManager.advanceSessionContextCache] at present
        split at present
        · cases present
        next older standing =>
          split at present
          · cases present
          next advanced =>
            obtain ⟨same, heldNone⟩ := not_or.mp advanced
            rw [not_not] at same
            rw [Bool.not_eq_true, Option.isSome_eq_false_iff, Option.isNone_iff_eq_none] at heldNone
            obtain ⟨-, before, isBefore, -⟩ := live older standing
            have longer := isBefore
            rw [same] at longer
            have extended := longer.append formed.grown publishable.distinct publishable.rooted
            rw [following] at isPath
            obtain rfl := isPath.unique extended
            have whole := extends_ older before standing same isBefore (_ :: earlier) entry later
              (by rw [SessionManager.chain, split]; rfl)
              (by
                intro other member
                rcases List.mem_cons.mp member with rfl | inside
                · exact heldNone
                · exact plain other inside)
            simpa using whole

/-- An operation that extends the context keeps it live. -/
theorem LiveContext.step (formed : WellFormed before) (live : LiveContext env before)
    (taken : SessionStep env before operation after) (keeps : KeepsLive env before operation) :
    LiveContext env after := by
  cases taken with
  | append fresh unlabelled admitted => exact live.appendEntries formed formed.leaf fresh keeps
  | appendLabelChange fresh applied =>
      simp only [SessionManager.appendLabelChange, bind_eq_ok, exists_unit, pure_eq_ok] at applied
      obtain ⟨-, rfl⟩ := applied
      exact live.appendEntries formed formed.leaf fresh keeps
  | branch applied =>
      simp only [SessionManager.branch, bind_eq_ok, exists_unit, pure_eq_ok] at applied
      obtain ⟨-, rfl⟩ := applied
      exact .of_no_cache rfl
  | resetLeaf => exact .of_no_cache rfl
  | branchWithSummary fresh applied =>
      simp only [SessionManager.branchWithSummary, bind_eq_ok, exists_unit, throwPlainIf_eq_ok,
        pure_eq_ok, not_and_or, not_not] at applied
      obtain ⟨present, rfl⟩ := applied
      refine live.appendEntries formed ?_ fresh keeps
      rintro id rfl
      obtain ⟨entry, found⟩ := Option.ne_none_iff_exists'.mp (present.resolve_left nofun)
      exact ⟨entry, entriesById_eq_some found⟩
  | buildSessionContext applied =>
      unfold SessionManager.buildSessionContext at applied
      split at applied
      · obtain ⟨-, rfl⟩ := Prod.mk.inj (Except.ok.inj applied)
        exact live
      · simp only [bind_eq_ok, pure_eq_ok] at applied
        obtain ⟨built, rebuilt, same⟩ := applied
        obtain ⟨-, rfl⟩ := Prod.mk.inj same
        intro cached found
        obtain rfl := Option.some.inj found
        obtain ⟨path, isPath⟩ := formed.grown.exists_path before.leafId
        rw [buildSessionContext_eq formed.grown.named formed.grown.ids_nodup formed.leaf isPath]
          at rebuilt
        exact ⟨formed.leaf, path, isPath, rebuilt⟩

/-- The live context of a manager is the one rebuilt from its entries. -/
def LiveEqualsRebuilt (env : Platform) (manager : SessionManager) : Prop :=
  (manager.buildSessionContext env).map Prod.fst =
    buildSessionContext env manager.entries manager.leafId

theorem LiveContext.equals_rebuilt (formed : WellFormed manager) (live : LiveContext env manager) :
    LiveEqualsRebuilt env manager := by
  unfold LiveEqualsRebuilt SessionManager.buildSessionContext
  split
  next cached found =>
    obtain ⟨present, same⟩ := Option.filter_eq_some_iff.mp found
    obtain ⟨known, path, isPath, built⟩ := live cached present
    rw [decide_eq_true_eq] at same
    rw [same] at known isPath
    rw [buildSessionContext_eq formed.grown.named formed.grown.ids_nodup known isPath, built]
    rfl
  · cases buildSessionContext env manager.entries manager.leafId <;> rfl

/-- A session whose appends extend the materialised context is live in every state. -/
theorem live_equals_rebuilt_of_keepsLive (env : Platform)
    (history : List (SessionManager × SessionOperation)) (manager : SessionManager)
    (run : SessionRun env history manager)
    (keeps : ∀ step ∈ history, KeepsLive env step.1 step.2) : LiveEqualsRebuilt env manager := by
  have live : WellFormed manager ∧ LiveContext env manager :=
    (run.restrict (KeepsLive env) keeps).preserves
      (fun manager => WellFormed manager ∧ LiveContext env manager)
      ⟨wellFormed_initial, .of_no_cache rfl⟩ fun held taken =>
        ⟨held.1.step taken.1, held.2.step held.1 taken.1 taken.2⟩
  exact live.2.equals_rebuilt live.1

theorem sessionStep_of_isOk (built : (manager.buildSessionContext env).isOk = true) :
    SessionStep env manager .buildSessionContext
      (((manager.buildSessionContext env).toOption.map Prod.snd).getD manager) := by
  cases read : manager.buildSessionContext env with
  | error reason =>
      rw [read] at built
      cases built
  | ok result => exact .buildSessionContext read

/-- A goal is recorded and discussed. -/
def goalDrafts : List EntryDraft :=
  [givenDraft "a" (userMessage "First"), givenDraft "b" (goalRecord "Old goal"),
    givenDraft "c" (userMessage "Second")]

def recordedGoal : SessionManager :=
  SessionManager.initial.appendEntries plainPlatform none goalDrafts

/-- The manager of the recorded goal after a checkpoint. -/
def checkpointedGoal : SessionManager :=
  recordedGoal.appendEntries plainPlatform (some "c") [givenDraft "d" (keptTailCheckpoint "c")]

/-- The manager of the recorded goal after its context was read. -/
def readGoal : SessionManager :=
  (((checkpointedGoal.buildSessionContext plainPlatform).toOption.map Prod.snd).getD
    checkpointedGoal)

/-- The operations of the recorded goal up to the reading of its context. -/
def goalHistory : List (SessionManager × SessionOperation) :=
  [(.initial, .append goalDrafts),
    (recordedGoal, .append [givenDraft "d" (keptTailCheckpoint "c")]),
    (checkpointedGoal, .buildSessionContext)]

theorem goal_run : SessionRun plainPlatform goalHistory readGoal := by
  have recorded : SessionStep plainPlatform .initial (.append goalDrafts) recordedGoal :=
    .append (by unfold Fresh; decide) (by simp [goalDrafts, givenDraft, userMessage, goalRecord])
      (by simp [goalDrafts, givenDraft, userMessage, goalRecord])
  have checkpointed : SessionStep plainPlatform recordedGoal
      (.append [givenDraft "d" (keptTailCheckpoint "c")]) checkpointedGoal := by
    have formed := wellFormed_initial.step recorded
    obtain ⟨path, isPath⟩ := formed.grown.exists_path recordedGoal.leafId
    refine .append (by unfold Fresh; decide) (by simp [givenDraft, keptTailCheckpoint]) ?_
    intro draft member compaction holds
    obtain rfl := List.mem_singleton.mp member
    obtain rfl := EntryBody.compaction.inj holds
    exact ⟨path, formed.getBranch formed.leaf isPath, by simp [compactionAdmitted]⟩
  have read : SessionStep plainPlatform checkpointedGoal .buildSessionContext readGoal :=
    sessionStep_of_isOk (by decide +kernel)
  exact .extend (.extend (.extend (.start _) recorded) checkpointed) read

/-- The manager of the recorded goal after another entry. -/
def extendedGoal (body : EntryBody) : SessionManager :=
  readGoal.appendEntries plainPlatform (some "d") [givenDraft "e" body]

theorem extendedGoal_run {body : EntryBody}
    (unlabelled : ∀ targetId label, body ≠ .label targetId label)
    (plain : ∀ compaction, body ≠ .compaction compaction) :
    SessionRun plainPlatform (goalHistory ++ [(readGoal, .append [givenDraft "e" body])])
      (extendedGoal body) := by
  refine goal_run.extend (.append ?_ ?_ ?_)
  · unfold Fresh
    simp only [List.map_cons, List.map_nil, givenDraft]
    decide
  · simpa [givenDraft] using unlabelled
  · simpa [givenDraft] using fun compaction holds => absurd holds (plain compaction)

/-- A new goal makes the goal that the checkpoint carries stale in the live context only. -/
theorem carried_goal_goes_stale :
    ¬∀ env history manager, SessionRun env history manager → LiveEqualsRebuilt env manager := by
  intro equal
  have run : SessionRun plainPlatform _ (extendedGoal (goalRecord "New goal")) :=
    extendedGoal_run (by simp [goalRecord]) (by simp [goalRecord])
  have same := equal _ _ _ run
  have lengths := congrArg (fun built => built.toOption.map fun context =>
    context.messages.length) same
  revert lengths
  decide +kernel

/-- A message of the user extends the context of the recorded goal. -/
theorem goal_discussion_is_live :
    LiveEqualsRebuilt plainPlatform (extendedGoal (userMessage "Third")) := by
  refine live_equals_rebuilt_of_keepsLive _ _ _
    (extendedGoal_run (by simp [userMessage]) (by simp [userMessage])) ?_
  intro step member cached path present following isPath earlier entry later split plain
  simp only [goalHistory, List.cons_append, List.nil_append, List.mem_cons, List.not_mem_nil,
    or_false] at member
  rcases member with rfl | rfl | rfl | rfl
  · cases present
  · cases present
  · cases present
  · rw [following] at isPath
    have formed := wellFormed_of_run goal_run
    have branch : readGoal.getBranch none = .ok path := formed.getBranch formed.leaf isPath
    have whole : readGoal.getBranch none = .ok readGoal.entries := rfl
    obtain rfl := Except.ok.inj (whole.symm.trans branch)
    have alone : earlier = [] ∧ entry = ⟨"e", some "d", "2026-01-01T00:00:00.000Z",
        userMessage "Third"⟩ := by
      cases earlier with
      | nil => exact ⟨rfl, (List.cons.inj split).1.symm⟩
      | cons _ _ =>
          have lengths := congrArg List.length split
          simp [appended, SessionManager.chain] at lengths
    obtain ⟨rfl, rfl⟩ := alone
    exact ⟨[], [], rfl, rfl, fun _ _ => ⟨fun _ _ => rfl, fun _ _ _ _ recorded => nomatch recorded⟩⟩

end PiAdaptative.Session
