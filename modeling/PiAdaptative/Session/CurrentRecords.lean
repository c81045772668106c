import PiAdaptative.Session.Branches
import PiAdaptative.Session.PendingInputs
import PiAdaptative.Session.Sections

/-!
# Current records in a rebuilt context

How often a rebuilt context holds the message of an entry.  Of the entries in the scope of a checkpoint
it holds what is carried forward, the kept user entry and what is retained; a checkpoint that keeps a
user entry retains its restored gaps only, and still counts every entry from the first kept one on as
part of the tail.
-/

namespace PiAdaptative.Session

variable {env : Platform} {entry : SessionEntry} {path scope before tail : List SessionEntry}
variable {checkpoint : Checkpoint} {pending : List String}

/-- A record of a kind that no later record of the kind replaces. -/
def Standing (kind : String) (entries : List SessionEntry) (entry : SessionEntry) : Prop :=
  ∃ earlier later record, entries = earlier ++ entry :: later ∧
    transientOf entry = some (kind, record) ∧
    ∀ other ∈ later, transientOf other ≠ some (kind, .superseding)

variable {kind : String}

/-- A transient record before the tail that stands, of a kind that the tail does not have. -/
def CarriedForward (tail before : List SessionEntry) (entry : SessionEntry) : Prop :=
  ∃ kind, kind ∉ transientKinds tail ∧ Standing kind before entry

theorem CarriedForward.mem (carried : CarriedForward tail before entry) : entry ∈ before := by
  obtain ⟨_, -, earlier, later, _, rfl, -, -⟩ := carried
  simp

variable {later projected gap : List SessionEntry}

/-- How often a context holds the message of an entry. -/
def occurrences (items : List SessionContextItem) (id : String) : Nat :=
  items.countP fun item => item.entry.id = id

variable {items : List SessionContextItem}

variable {item : SessionContextItem}

variable {entries : List SessionEntry}

section

variable (distinct : ((scope ++ checkpoint.entry :: checkpoint.after).map SessionEntry.id).Nodup)
include distinct

section

variable (plain : ∀ other ∈ checkpoint.after, compactionOf other = none)
include plain

end

end

/-- A checkpoint that a path is rebuilt by, with its scope. -/
inductive ScopeOf : List SessionEntry → Checkpoint → List SessionEntry → Prop
  | latest {path outer scope : List SessionEntry} {checkpoint : Checkpoint} :
      latestCheckpoint path = some checkpoint →
      compactionScope checkpoint = .ok (outer, scope) →
      ScopeOf path checkpoint scope
  | earlier {path outer scope otherScope : List SessionEntry} {checkpoint other : Checkpoint} :
      latestCheckpoint path = some checkpoint →
      compactionScope checkpoint = .ok (outer, scope) →
      ScopeOf outer other otherScope →
      ScopeOf path other otherScope

theorem split_of_scope {outer : List SessionEntry} (found : latestCheckpoint path = some checkpoint)
    (cut : compactionScope checkpoint = .ok (outer, scope)) :
    path = outer ++ (scope ++ checkpoint.entry :: checkpoint.after) := by
  rw [← List.append_assoc, ← compactionScope_eq_ok cut]
  exact (latestCheckpoint_eq_some found).1

theorem ScopeOf.mem (inside : ScopeOf path checkpoint scope) (member : entry ∈ scope) :
    entry ∈ path := by
  induction inside with
  | latest found cut =>
      rw [split_of_scope found cut]
      simp [member]
  | earlier found cut _ ih =>
      rw [split_of_scope found cut]
      exact List.mem_append_left _ (ih member)

/-- A parent input was accepted and is not settled. -/
def InputWaits (env : Platform) (path : List SessionEntry) (entryId : String) : Prop :=
  ∃ index, applyEntries env (entriesById path) path .initial = .ok index ∧
    ∃ input ∈ index.pendingInputs, input.entryId = entryId

theorem InputWaits.mem {entryId : String} (waits : InputWaits env path entryId)
    (waiting : parentInputContextIds env path = .ok pending) : entryId ∈ pending := by
  obtain ⟨index, applied, input, member, rfl⟩ := waits
  simp only [parentInputContextIds, applied, bind, Except.bind, pure, Except.pure] at waiting
  obtain rfl := Except.ok.inj waiting
  exact List.mem_append_left _ (List.mem_map_of_mem member)

open SessionManager (chain)

end PiAdaptative.Session
