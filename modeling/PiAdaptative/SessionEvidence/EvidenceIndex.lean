import Mathlib.Algebra.BigOperators.Group.List.Basic
import PiAdaptative.Foundations.AvlTrees
import PiAdaptative.Foundations.JumpTables
import PiAdaptative.Foundations.OrderedMap
import PiAdaptative.SessionEvidence.EvidenceKeys
import PiAdaptative.SessionEvidence.ParentChains

/-!
# The session entry evidence index

Entries are added in any order.  An entry whose parent has a lineage gets its own; one that comes too
early waits for its parent.  A lineage holds the root, the depth, a jump table and a map from keys to
the ancestors that answer them, nearest first.
-/

namespace PiAdaptative.SessionEvidence

open Session JumpTables

def MAX_SESSION_EVIDENCE_ENTRIES : Nat := 1000000
def MAX_EVIDENCE_RESULTS : Nat := 64
def MAX_INDEXED_EVIDENCE_KEYS : Nat := 2000000

/-- The place of an entry on a complete parent chain; evidence lists its newest entry first. -/
structure EntryLineage where
  root : String
  depth : Nat
  ancestors : List String
  evidence : AvlTree EvidenceKey (List String)

structure IndexedEntry where
  parentId : Option (Option String)
  keys : List EvidenceKey
  lineage : Option EntryLineage

structure SessionEntryEvidenceIndex where
  entries : OrderedMap String IndexedEntry
  /-- The entries that wait for a parent, by its id. -/
  waiting : OrderedMap String (List String)
  keyCount : Nat

/-- The evidence with an entry set in front for each of its keys. -/
def setEvidence (id : String) (keys : List EvidenceKey)
    (evidence : AvlTree EvidenceKey (List String)) : AvlTree EvidenceKey (List String) :=
  keys.foldl (fun tree key => tree.set key (id :: (tree.get? key).getD [])) evidence

namespace SessionEntryEvidenceIndex

def empty : SessionEntryEvidenceIndex where
  entries := .empty
  waiting := .empty
  keyCount := 0

/-- `entries.get(id)?.lineage`. -/
def lineage? (index : SessionEntryEvidenceIndex) (id : String) : Option EntryLineage :=
  (index.entries.get? id).bind IndexedEntry.lineage

/-- The jump table of an entry. -/
def ancestors? (index : SessionEntryEvidenceIndex) (id : String) : Option (List String) :=
  (index.lineage? id).map EntryLineage.ancestors

/-- The lineage of an entry below a parent. -/
def lineageBelow (index : SessionEntryEvidenceIndex) (id : String) (keys : List EvidenceKey) :
    Option String → EntryLineage
  | none =>
      { root := id
        depth := 0
        ancestors := []
        evidence := setEvidence id keys .leaf }
  | some parent =>
      let above := index.lineage? parent
      { root := (above.map EntryLineage.root).getD id
        depth := ((above.map fun lineage => lineage.depth + 1).getD 0)
        ancestors := fillJumps index.ancestors? ((above.map EntryLineage.depth).getD 0) 0 parent
        evidence := setEvidence id keys ((above.map EntryLineage.evidence).getD .leaf) }

def attach (index : SessionEntryEvidenceIndex) (id : String) (entry : IndexedEntry)
    (parent : Option String) : SessionEntryEvidenceIndex :=
  { index with
    entries := index.entries.set id
      { entry with lineage := some (index.lineageBelow id entry.keys parent) } }

/-- Attach an entry below its parent in the index; an id without an entry is left alone. -/
def attachEntry (index : SessionEntryEvidenceIndex) (id : String) : SessionEntryEvidenceIndex :=
  match index.entries.get? id with
  | none => index
  | some entry => index.attach id entry (entry.parentId.join.filter index.entries.has)

@[simp]
theorem waiting_attachEntry (index : SessionEntryEvidenceIndex) (id : String) :
    (index.attachEntry id).waiting = index.waiting := by
  unfold attachEntry
  split <;> rfl

/-- The entries that wait for an id. -/
def children (index : SessionEntryEvidenceIndex) (id : String) : List String :=
  (index.waiting.get? id).getD []

/-- How many entries wait. -/
def waitingCount (index : SessionEntryEvidenceIndex) : Nat :=
  (index.waiting.values.map List.length).sum

/-- The children of an id no longer wait. -/
def release (index : SessionEntryEvidenceIndex) (id : String) : SessionEntryEvidenceIndex :=
  { index with waiting := index.waiting.erase id }

theorem waitingCount_release (index : SessionEntryEvidenceIndex) (id : String) :
    (index.release id).waitingCount + (index.children id).length = index.waitingCount := by
  unfold waitingCount children release
  cases found : index.waiting.get? id with
  | none => rw [OrderedMap.erase_of_absent (OrderedMap.has_eq_false.mpr found)]; rfl
  | some ids =>
      have split := ((OrderedMap.values_perm_cons found).map List.length).sum_eq
      rw [split, List.map_cons, List.sum_cons, Option.getD_some, Nat.add_comm]

/-- Attach the pending entries, the last one first, and then the entries that waited for them. -/
def attachPending (index : SessionEntryEvidenceIndex) : List String → SessionEntryEvidenceIndex
  | [] => index
  | id :: pending =>
      attachPending ((index.attachEntry id).release id)
        (((index.attachEntry id).children id).reverse ++ pending)
  termination_by pending => index.waitingCount + pending.length
  decreasing_by
    have moved := waitingCount_release (index.attachEntry id) id
    have kept : (index.attachEntry id).waitingCount = index.waitingCount := by
      rw [waitingCount, waiting_attachEntry, waitingCount]
    simp only [List.length_append, List.length_reverse, List.length_cons]
    omega

/-- `waiting.get(parentId) ?? []` with an entry more. -/
def awaitParent (index : SessionEntryEvidenceIndex) (id parentId : String) :
    SessionEntryEvidenceIndex :=
  { index with waiting := index.waiting.set parentId (index.children parentId ++ [id]) }

/-- The index with an entry that has no lineage yet. -/
def insert (index : SessionEntryEvidenceIndex) (entry : SessionEntry) (keys : List EvidenceKey) :
    SessionEntryEvidenceIndex :=
  { index with
    entries := index.entries.set entry.id
      { parentId := sessionEvidenceParentId entry
        keys
        lineage := none }
    keyCount := index.keyCount + keys.length }

/-- Place an entry that has just been inserted. -/
def place (index : SessionEntryEvidenceIndex) (entry : SessionEntry) : SessionEntryEvidenceIndex :=
  match sessionEvidenceParentId entry with
  | none => index
  | some none => index.attachPending [entry.id]
  | some (some parentId) =>
      if (index.lineage? parentId).isNone then index.awaitParent entry.id parentId
      else index.attachPending [entry.id]

def add (env : Platform) (index : SessionEntryEvidenceIndex) (entry : SessionEntry) :
    Outcome SessionEntryEvidenceIndex := do
  throwPlainIf (entry.id = "" ∨ MAX_SESSION_EVIDENCE_ID_CHARS < utf16Length entry.id)
    "Session evidence entry id is invalid."
  throwPlainIf (index.entries.has entry.id = true)
    "Session evidence contains a duplicate entry id."
  throwPlainIf (MAX_SESSION_EVIDENCE_ENTRIES ≤ index.entries.size)
    "Session evidence index exceeds its entry limit."
  let keys ← evidenceKeys env entry
  throwPlainIf (MAX_INDEXED_EVIDENCE_KEYS < index.keyCount + keys.length)
    "Session evidence index exceeds its metadata limit."
  return (index.insert entry keys).place entry

def requireEntry (index : SessionEntryEvidenceIndex) (id : String) : Outcome EntryLineage :=
  match index.lineage? id with
  | some lineage => .ok lineage
  | none => .error
      (.plain "Session evidence ancestry has a missing entry, malformed link or cycle.")

def isAncestor (index : SessionEntryEvidenceIndex) (ancestorId descendantId : String) :
    Outcome Bool := do
  let ancestor ← index.requireEntry ancestorId
  let descendant ← index.requireEntry descendantId
  if ancestor.root ≠ descendant.root ∨ descendant.depth < ancestor.depth then return false
  match climb index.ancestors? (descendant.depth - ancestor.depth) 0 descendantId with
  | some reached => return ancestorId = reached
  | none => .error (.plain "Cannot read properties of undefined (reading 'lineage')")

def findAncestors (index : SessionEntryEvidenceIndex) (descendantId : String)
    (query : ParentInputEvidenceQuery) (requested : Option Rat) : Outcome (List String) := do
  let limit := requested.getD MAX_EVIDENCE_RESULTS
  throwPlainIf (limit.den ≠ 1 ∨ limit < 1 ∨ (MAX_EVIDENCE_RESULTS : Rat) < limit)
    "Session evidence query limit must be from 1 through 64."
  let entry ← index.requireEntry descendantId
  return ((entry.evidence.get? (evidenceKey query)).getD []).take limit.num.toNat

end SessionEntryEvidenceIndex

end PiAdaptative.SessionEvidence
