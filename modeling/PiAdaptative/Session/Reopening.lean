import Mathlib.Data.List.Chain
import PiAdaptative.Session.BranchCopies

/-!
# Reopening a session

A session file holds the entries in the order of their appends.  Reading it gives the running manager
with its leaf at the last entry, and appends and moves of the leaf leave every branch as it was.
-/

namespace PiAdaptative.Session

open SessionManager (labelEntry buildIndex)

variable {env : Platform} {before after manager : SessionManager} {operation : SessionOperation}
variable {history later : List (SessionManager × SessionOperation)}
variable {entries appended line : List SessionEntry} {start : Option SessionEntry}

theorem foldl_publish (appended : List SessionEntry) (manager : SessionManager) :
    (appended.foldl (SessionManager.publish env) manager).entries = manager.entries ++ appended ∧
      (appended.foldl (SessionManager.publish env) manager).labelsById =
        appended.foldl labelEntry manager.labelsById := by
  induction appended generalizing manager with
  | nil => exact ⟨(List.append_nil _).symm, rfl⟩
  | cons entry appended ih =>
      obtain ⟨entries, labels⟩ := ih (manager.publish env entry)
      exact ⟨entries.trans (List.append_assoc ..), labels⟩

/-- An operation appends some entries, and their labels take effect. -/
theorem SessionStep.appends (taken : SessionStep env before operation after) :
    ∃ appended, after.entries = before.entries ++ appended ∧
      after.labelsById = appended.foldl labelEntry before.labelsById := by
  rcases taken.effect with ⟨parentId, drafts, -, -, rfl⟩ | ⟨entries, labels, -⟩
  · exact ⟨_, foldl_publish _ _⟩
  · exact ⟨[], by rw [entries, List.append_nil], labels⟩

/-- The labels of a manager are those its entries tell. -/
theorem labelsById_of_run (run : SessionRun env history manager) :
    manager.labelsById = manager.entries.foldl labelEntry .empty := by
  refine run.preserves (fun manager => manager.labelsById = manager.entries.foldl labelEntry .empty)
    rfl fun read taken => ?_
  obtain ⟨appended, entries, labels⟩ := taken.appends
  rw [labels, entries, List.foldl_append, read]

/-- A session file is read back as the running manager after a move of its leaf to the last entry. -/
theorem session_is_reopened (run : SessionRun env history manager) :
    ∃ reopened, buildIndex manager.entries = .ok reopened ∧
      (∃ operation, SessionStep env manager operation reopened) ∧
      reopened.entries = manager.entries ∧ reopened.labelsById = manager.labelsById ∧
      reopened.leafId = manager.entries.getLast?.map SessionEntry.id := by
  have formed := wellFormed_of_run run
  have indexed := buildIndex_eq_ok.mpr ⟨⟨formed.grown.named, formed.grown.ids_nodup,
    fun _ member => formed.grown.exists_line member⟩, rfl⟩
  rw [← labelsById_of_run run] at indexed
  refine ⟨_, indexed, ?_, rfl, rfl, rfl⟩
  cases last : manager.entries.getLast? with
  | none => exact ⟨_, .resetLeaf⟩
  | some entry =>
      have found := formed.grown.byId (List.mem_of_getLast? last)
      refine ⟨.branch entry.id, .branch ?_⟩
      simp only [SessionManager.branch, bind_eq_ok, exists_unit, throwPlainIf_eq_ok, pure_eq_ok]
      exact ⟨by rw [SessionManager.byId, found]; exact Option.some_ne_none _, rfl⟩

theorem labelled_session_is_reopened :
    ∃ reopened, buildIndex labelledMessage.entries = .ok reopened ∧
      reopened.labelsById = labelledMessage.labelsById ∧ reopened.leafId = some "l" := by
  obtain ⟨reopened, indexed, -, -, labels, leaf⟩ := session_is_reopened label_run
  exact ⟨reopened, indexed, labels, leaf⟩

/-! ## Branches -/

/-- The entries of a line follow one another. -/
theorem Line.follows (lineage : Line entries start line) :
    line.IsChain fun child parent => child.parentId = some parent.id := by
  induction lineage with
  | root => exact .nil
  | @child entry older rest ih =>
      cases older with
      | nil => exact .singleton _
      | cons parent older =>
          exact .cons_cons (parentEntry_eq_some rest.head?.symm).2 ih

/-- A run that goes on keeps every entry in place and its branch as it was: the branch leads from an
entry without a parent to its entry, parent by parent, and repeats none. -/
theorem branches_are_kept (run : SessionRun env history before)
    (more : Execution (SessionStep env) before later after) :
    before.entries <+: after.entries ∧ ∀ entry ∈ before.entries, ∃ path,
      before.getBranch (some entry.id) = .ok path ∧ after.getBranch (some entry.id) = .ok path ∧
      path.getLast? = some entry ∧ (∀ root, path.head? = some root → root.parentId = none) ∧
      (path.IsChain fun parent child => child.parentId = some parent.id) ∧
      (path.map SessionEntry.id).Nodup := by
  have formed := wellFormed_of_run run
  have grown := wellFormed_of_run (run.trans more)
  have kept : before.entries <+: after.entries := by
    refine more.preserves (fun state => before.entries <+: state.entries) (List.prefix_refl _)
      fun held taken => ?_
    obtain ⟨appended, entries, -⟩ := taken.appends
    exact held.trans ⟨appended, entries.symm⟩
  refine ⟨kept, fun entry member => ?_⟩
  have known : Known before.entries (some entry.id) :=
    fun _ same => ⟨entry, member, Option.some.inj same⟩
  have still : Known after.entries (some entry.id) :=
    fun _ same => ⟨entry, kept.mem member, Option.some.inj same⟩
  obtain ⟨line, lineage⟩ := formed.grown.exists_line member
  have starts : ∀ start, some entry = some start → start ∈ before.entries := by
    rintro _ ⟨⟩
    exact member
  have isPath : IsPath before.entries (some entry.id) line.reverse :=
    ⟨line, by rw [Option.bind_some, formed.grown.byId member]; exact lineage, rfl⟩
  have later : IsPath after.entries (some entry.id) line.reverse := by
    refine ⟨line, ?_, rfl⟩
    rw [Option.bind_some, grown.grown.byId (kept.mem member)]
    exact formed.grown.line_congr (fun _ inside => grown.grown.byId (kept.mem inside)) lineage starts
  refine ⟨line.reverse, formed.getBranch known isPath, grown.getBranch still later, ?_, ?_, ?_,
    isPath.ids_nodup formed.grown⟩
  · rw [List.getLast?_reverse, lineage.head?]
  · intro root first
    rw [List.head?_reverse] at first
    obtain ⟨newer, rfl⟩ := List.getLast?_eq_some_iff.mp first
    have oldest := lineage.parent_last
    cases follows : root.parentId with
    | none => rfl
    | some parentId =>
        obtain ⟨parent, found, -⟩ := formed.grown.parentEntry_of_follows
          (Line.mem lineage starts root (List.mem_of_getLast? first)) follows
        rw [oldest] at found
        cases found
  · rw [List.isChain_reverse]
    exact Line.follows lineage

theorem labelled_branches_are_kept :
    ∃ path, labelledMessage.resetLeaf.getBranch (some "l") = .ok path ∧
      path.getLast?.map SessionEntry.id = some "l" := by
  obtain ⟨-, kept⟩ := branches_are_kept label_run (.single .resetLeaf)
  obtain ⟨path, -, later, last, -⟩ := kept _ (List.mem_of_getLast? rfl)
  exact ⟨path, later, by rw [last]; rfl⟩

end PiAdaptative.Session
