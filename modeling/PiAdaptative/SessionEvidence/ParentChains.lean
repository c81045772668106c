import Mathlib.Data.List.Nodup
import Mathlib.Data.List.Perm.Subperm
import PiAdaptative.Session.Entries

/-!
# Parent chains of a set of entries

An entry names its parent.  The chain of an id leads from its entry to a root; a missing entry, a
malformed link or a cycle breaks it.
-/

namespace PiAdaptative.SessionEvidence

open Session

def MAX_SESSION_EVIDENCE_ID_CHARS : Nat := 512

/-- The parent of an entry, or no parent; nothing where the link is malformed. -/
def sessionEvidenceParentId (entry : SessionEntry) : Option (Option String) :=
  match entry.parentId with
  | none => some none
  | some parentId =>
      if parentId ≠ "" ∧ utf16Length parentId ≤ MAX_SESSION_EVIDENCE_ID_CHARS then
        some (some parentId)
      else none

/-- The entries from an id to a root, through well-formed links to entries of the set. -/
inductive ParentChain (entries : List SessionEntry) : String → List SessionEntry → Prop
  | root {entry : SessionEntry} (member : entry ∈ entries) (top : entry.parentId = none) :
      ParentChain entries entry.id [entry]
  | child {entry : SessionEntry} {parentId : String} {older : List SessionEntry}
      (member : entry ∈ entries) (link : sessionEvidenceParentId entry = some (some parentId))
      (chain : ParentChain entries parentId older) : ParentChain entries entry.id (entry :: older)

def idsOf (entries : List SessionEntry) : List String := entries.map SessionEntry.id

variable {entry : SessionEntry}

theorem sessionEvidenceParentId_root :
    sessionEvidenceParentId entry = some none ↔ entry.parentId = none := by
  unfold sessionEvidenceParentId
  cases entry.parentId with
  | none => simp
  | some parentId =>
      dsimp only
      split <;> simp

namespace ParentChain

variable {entries : List SessionEntry} {id : String} {chain : List SessionEntry}

section

variable (held : ParentChain entries id chain)
include held

theorem mono {more : List SessionEntry} (within : ∀ entry ∈ entries, entry ∈ more) :
    ParentChain more id chain := by
  induction held with
  | root member top => exact .root (within _ member) top
  | child member link _ ih => exact .child (within _ member) link ih

theorem mem : ∀ entry ∈ chain, entry ∈ entries := by
  induction held with
  | root member top => simpa using member
  | child member link _ ih => simpa using ⟨member, ih⟩

theorem head? : (idsOf chain)[0]? = some id := by
  cases held <;> rfl

theorem id_mem : id ∈ idsOf entries := by
  cases held with
  | root member => exact List.mem_map_of_mem member
  | child member => exact List.mem_map_of_mem member

end

theorem entry_eq (distinct : (idsOf entries).Nodup) {entry other : SessionEntry}
    (member : entry ∈ entries) (present : other ∈ entries) (same : entry.id = other.id) :
    entry = other :=
  List.inj_on_of_nodup_map distinct member present same

theorem of_entry (distinct : (idsOf entries).Nodup) (member : entry ∈ entries)
    (held : ParentChain entries entry.id chain) :
    sessionEvidenceParentId entry = some none ∧ chain = [entry] ∨ ∃ parentId older,
      sessionEvidenceParentId entry = some (some parentId) ∧
        ParentChain entries parentId older ∧ chain = entry :: older := by
  generalize same : entry.id = id at held
  cases held with
  | root present top =>
      obtain rfl := entry_eq distinct member present same
      exact .inl ⟨sessionEvidenceParentId_root.mpr top, rfl⟩
  | child present link rest =>
      obtain rfl := entry_eq distinct member present same
      exact .inr ⟨_, _, link, rest, rfl⟩

/-- An id has one chain at most. -/
theorem unique {other : List SessionEntry} (distinct : (idsOf entries).Nodup)
    (first : ParentChain entries id chain) (second : ParentChain entries id other) :
    chain = other := by
  induction first generalizing other with
  | root member top =>
      rcases second.of_entry distinct member with ⟨-, rfl⟩ | ⟨parentId, older, link, -⟩
      · rfl
      · rw [sessionEvidenceParentId_root.mpr top] at link
        cases link
  | child member link rest ih =>
      rcases second.of_entry distinct member with ⟨top, -⟩ | ⟨parentId, older, sameLink, held, rfl⟩
      · rw [link] at top
        cases top
      · rw [link] at sameLink
        cases sameLink
        rw [ih held]

/-- An entry on a chain continues with its own chain. -/
theorem drop (held : ParentChain entries id chain) {distance : Nat}
    (here : chain[distance]? = some entry) :
    ParentChain entries entry.id (chain.drop distance) := by
  induction held generalizing distance with
  | root member top =>
      cases distance with
      | zero =>
          cases here
          exact .root member top
      | succ distance => simp at here
  | child member link rest ih =>
      cases distance with
      | zero =>
          cases here
          exact .child member link rest
      | succ distance => exact ih here

end ParentChain

/-- Climbing well-formed links from one id to another. -/
inductive Climbs (entries : List SessionEntry) : String → String → Prop
  | refl (id : String) : Climbs entries id id
  | parent {entry : SessionEntry} {parentId older : String} (member : entry ∈ entries)
      (link : sessionEvidenceParentId entry = some (some parentId))
      (climbs : Climbs entries parentId older) : Climbs entries entry.id older

variable {entries : List SessionEntry}

theorem Climbs.trans {id middle older : String} (first : Climbs entries id middle)
    (second : Climbs entries middle older) : Climbs entries id older := by
  induction first with
  | refl => exact second
  | parent member link _ ih => exact .parent member link (ih second)

/-- What breaks the parent chain of an id. -/
inductive BrokenChain (entries : List SessionEntry) (id : String) : Prop
  | incomplete {missing : String} (climbs : Climbs entries id missing)
      (absent : missing ∉ idsOf entries)
  | malformed {entry : SessionEntry} (member : entry ∈ entries)
      (climbs : Climbs entries id entry.id) (link : sessionEvidenceParentId entry = none)
  | cyclic {entry : SessionEntry} {parentId : String} (member : entry ∈ entries)
      (climbs : Climbs entries id entry.id)
      (link : sessionEvidenceParentId entry = some (some parentId))
      (around : Climbs entries parentId entry.id)

/-- What is climbed from an id with a chain lies on the chain. -/
theorem Climbs.chain {id older : String} (distinct : (idsOf entries).Nodup)
    (climbs : Climbs entries id older) {chain : List SessionEntry}
    (held : ParentChain entries id chain) :
    ∃ distance, ParentChain entries older (chain.drop distance) := by
  induction climbs generalizing chain with
  | refl id => exact ⟨0, held⟩
  | parent member link _ ih =>
      rcases held.of_entry distinct member with ⟨top, -⟩ | ⟨parentId, rest, sameLink, above, rfl⟩
      · rw [link] at top
        cases top
      · rw [link] at sameLink
        cases sameLink
        obtain ⟨distance, found⟩ := ih above
        exact ⟨distance + 1, found⟩

/-- Climbing on from an entry ends at a root or finds what breaks the chain. -/
theorem exists_chain_or_broken {id : String} (room : Nat)
    {current : String} {seen : List SessionEntry} (nodup : seen.Nodup)
    (within : seen ⊆ entries) (space : entries.length ≤ seen.length + room)
    (climbs : Climbs entries id current)
    (passed : ∀ entry ∈ seen, Climbs entries id entry.id ∧ ∃ parentId,
      sessionEvidenceParentId entry = some (some parentId) ∧ Climbs entries parentId current) :
    (∃ chain, ParentChain entries current chain) ∨ BrokenChain entries id := by
  induction room generalizing current seen with
  | zero =>
      by_cases present : current ∈ idsOf entries
      · obtain ⟨entry, member, rfl⟩ := List.mem_map.mp present
        have all : entries ⊆ seen := by
          have same := (List.subperm_of_subset nodup within).perm_of_length_le (by omega)
          exact fun other inEntries => same.mem_iff.mpr inEntries
        obtain ⟨_, parentId, link, around⟩ := passed entry (all member)
        exact .inr (.cyclic member climbs link around)
      · exact .inr (.incomplete climbs present)
  | succ room ih =>
      by_cases present : current ∈ idsOf entries
      · obtain ⟨entry, member, rfl⟩ := List.mem_map.mp present
        cases link : sessionEvidenceParentId entry with
        | none => exact .inr (.malformed member climbs link)
        | some parent =>
            cases parent with
            | none => exact .inl ⟨_, .root member (sessionEvidenceParentId_root.mp link)⟩
            | some parentId =>
                by_cases again : entry ∈ seen
                · obtain ⟨_, otherParent, otherLink, around⟩ := passed entry again
                  exact .inr (.cyclic member climbs otherLink around)
                · have step : Climbs entries entry.id parentId := .parent member link (.refl _)
                  have later : (∃ chain, ParentChain entries parentId chain) ∨
                      BrokenChain entries id := ih (List.nodup_cons.mpr ⟨again, nodup⟩)
                    (List.cons_subset.mpr ⟨member, within⟩)
                    (by rw [List.length_cons]; omega) (climbs.trans step) (by
                      intro other known
                      rcases List.mem_cons.mp known with rfl | earlier
                      · exact ⟨climbs, parentId, link, .refl _⟩
                      · obtain ⟨reached, otherParent, otherLink, onward⟩ := passed other earlier
                        exact ⟨reached, otherParent, otherLink, onward.trans step⟩)
                  rcases later with ⟨chain, held⟩ | broken
                  · exact .inl ⟨_, .child member link held⟩
                  · exact .inr broken
      · exact .inr (.incomplete climbs present)

/-- A chain is broken exactly where there is none. -/
theorem brokenChain_iff (distinct : (idsOf entries).Nodup) (id : String) :
    BrokenChain entries id ↔ ¬∃ chain, ParentChain entries id chain := by
  constructor
  · rintro broken ⟨chain, held⟩
    cases broken with
    | incomplete climbs absent =>
        obtain ⟨distance, found⟩ := climbs.chain distinct held
        exact absent found.id_mem
    | malformed member climbs link =>
        obtain ⟨distance, found⟩ := climbs.chain distinct held
        rcases found.of_entry distinct member with ⟨top, -⟩ | ⟨parentId, older, other, -⟩
        · rw [link] at top
          cases top
        · rw [link] at other
          cases other
    | cyclic member climbs link around =>
        obtain ⟨distance, found⟩ := climbs.chain distinct held
        rcases found.of_entry distinct member with ⟨top, -⟩ | ⟨parentId, older, same, above, cons⟩
        · rw [link] at top
          cases top
        · rw [link] at same
          cases same
          obtain ⟨further, again⟩ := around.chain distinct above
          have lengths := congrArg List.length (again.unique distinct found)
          rw [cons, List.length_drop, List.length_cons] at lengths
          omega
  · intro missing
    have walked : (∃ chain, ParentChain entries id chain) ∨ BrokenChain entries id :=
      exists_chain_or_broken entries.length List.nodup_nil (List.nil_subset _) (by simp)
        (.refl id) (by simp)
    exact walked.resolve_left missing

end PiAdaptative.SessionEvidence
