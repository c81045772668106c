import PiAdaptative.Foundations.OrderedMap

/-!
# The exported variables of a shell session

The lanes of one session are shells of their own.  A ledger keeps what the session exports: a lane
reports its listing when a command has changed it, and replays what it lacks before its next command.
-/

namespace PiAdaptative.ShellExports

/-- Exported names with the lines that recreate them, without the names the shell manages itself. -/
abbrev Listing := OrderedMap String String

inductive Assignment where
  /-- A `declare -x` line. -/
  | declare (name line : String)
  /-- `unset -v`. -/
  | unset (name : String)
  deriving DecidableEq, Repr

def Assignment.name : Assignment → String
  | .declare name _ => name
  | .unset name => name

def Assignment.line : Assignment → Option String
  | .declare _ line => some line
  | .unset _ => none

def Assignment.apply (environment : Listing) : Assignment → Listing
  | .declare name line => environment.set name line
  | .unset name => environment.erase name

/-- An environment after a list of assignments. -/
def assign (environment : Listing) (assignments : List Assignment) : Listing :=
  assignments.foldl Assignment.apply environment

structure ShellExportLedger where
  /-- The environment every lane was spawned with, once a lane has reported. -/
  baseline : Option Listing
  entries : Listing
  currentVersion : Nat

def emptyLedger : ShellExportLedger where
  baseline := none
  entries := .empty
  currentVersion := 0

namespace ShellExportLedger

/-- The first report seeds the session. -/
def seed (ledger : ShellExportLedger) (previous : Option Listing) (next : Listing) :
    ShellExportLedger :=
  match ledger.baseline with
  | some _ => ledger
  | none =>
      { ledger with baseline := some (previous.getD next), entries := previous.getD next }

/-- Take over one line of a listing. -/
def recordLine (before : Listing) (recorded : Listing × Bool) (entry : String × String) :
    Listing × Bool :=
  if before.get? entry.1 = some entry.2 then recorded
  else if recorded.1.get? entry.1 = some entry.2 then recorded
  else (recorded.1.set entry.1 entry.2, true)

/-- Take over that a name is gone. -/
def recordMissing (next : Listing) (recorded : Listing × Bool) (name : String) : Listing × Bool :=
  if next.has name = true ∨ recorded.1.has name = false then recorded
  else (recorded.1.erase name, true)

/-- Merge what one command of a lane changed. -/
def record (ledger : ShellExportLedger) (previous : Option Listing) (next : Listing) :
    ShellExportLedger :=
  let seeded := ledger.seed previous next
  let before := previous.getD (seeded.baseline.getD .empty)
  let lines := next.entries.foldl (recordLine before) (seeded.entries, false)
  let (entries, changed) := before.keys.foldl (recordMissing next) lines
  { seeded with
    entries
    currentVersion := if changed then seeded.currentVersion + 1 else seeded.currentVersion }

/-- The assignments that bring a lane up to the session. -/
def preludeFor (ledger : ShellExportLedger) (laneListing : Option Listing) : List Assignment :=
  let lane := laneListing.getD (ledger.baseline.getD .empty)
  (ledger.entries.entries.filterMap fun (name, line) =>
      if lane.get? name = some line then none else some (.declare name line)) ++
    lane.keys.filterMap fun name =>
      if ledger.entries.has name then none else some (.unset name)

end ShellExportLedger

theorem get?_apply (environment : Listing) (assignment : Assignment) (name : String) :
    (assignment.apply environment).get? name =
      if name = assignment.name then assignment.line else environment.get? name := by
  cases assignment with
  | declare name line => exact OrderedMap.get?_set _ _ _ _
  | unset name => exact OrderedMap.get?_erase _ _ _

variable {environment : Listing} {assignments : List Assignment}

theorem get?_assign_of_absent {name : String}
    (absent : ∀ assignment ∈ assignments, assignment.name ≠ name) :
    (assign environment assignments).get? name = environment.get? name := by
  induction assignments generalizing environment with
  | nil => rfl
  | cons assignment rest ih =>
      calc (assign (assignment.apply environment) rest).get? name
          = (assignment.apply environment).get? name :=
            ih fun other member => absent other (List.mem_cons_of_mem _ member)
        _ = environment.get? name := by
            rw [get?_apply, if_neg (absent assignment List.mem_cons_self).symm]

theorem get?_assign_of_agree {name : String} {line : Option String}
    (present : ∃ assignment ∈ assignments, assignment.name = name)
    (agree : ∀ assignment ∈ assignments, assignment.name = name → assignment.line = line) :
    (assign environment assignments).get? name = line := by
  induction assignments generalizing environment with
  | nil => simp at present
  | cons assignment rest ih =>
      by_cases later : ∃ other ∈ rest, other.name = name
      · exact ih later fun other member => agree other (List.mem_cons_of_mem _ member)
      · have absent : ∀ other ∈ rest, other.name ≠ name := fun other member same =>
          later ⟨other, member, same⟩
        obtain ⟨first, member, same⟩ := present
        rcases List.mem_cons.mp member with rfl | member
        · calc (assign (first.apply environment) rest).get? name
              = (first.apply environment).get? name := get?_assign_of_absent absent
            _ = first.line := by rw [get?_apply, if_pos same.symm]
            _ = line := agree first List.mem_cons_self same
        · exact absurd same (absent first member)

variable (ledger : ShellExportLedger)

/-- A lane that holds what the prelude was made for holds the session set after it. -/
theorem get?_assign_preludeFor {laneListing : Option Listing}
    (same : ∀ name, environment.get? name =
      (laneListing.getD (ledger.baseline.getD .empty)).get? name) (name : String) :
    (assign environment (ledger.preludeFor laneListing)).get? name = ledger.entries.get? name := by
  have members : ∀ assignment, assignment ∈ ledger.preludeFor laneListing →
      (∃ line, ledger.entries.get? assignment.name = some line ∧ assignment.line = some line ∧
        environment.get? assignment.name ≠ some line) ∨
      (ledger.entries.get? assignment.name = none ∧ assignment.line = none) := by
    intro assignment member
    rcases List.mem_append.mp member with declared | unset
    · obtain ⟨⟨name, line⟩, inside, found⟩ := List.mem_filterMap.mp declared
      simp only [Option.ite_none_left_eq_some, Option.some.injEq] at found
      obtain ⟨differs, rfl⟩ := found
      exact .inl ⟨line, OrderedMap.get?_eq_some.mpr inside, rfl, by rwa [same]⟩
    · obtain ⟨name, -, found⟩ := List.mem_filterMap.mp unset
      simp only [Option.ite_none_left_eq_some, Bool.not_eq_true, Option.some.injEq] at found
      obtain ⟨gone, rfl⟩ := found
      exact .inr ⟨OrderedMap.has_eq_false.mp gone, rfl⟩
  by_cases present : ∃ assignment ∈ ledger.preludeFor laneListing, assignment.name = name
  · refine get?_assign_of_agree present fun assignment member own => ?_
    subst own
    rcases members assignment member with ⟨line, found, states, -⟩ | ⟨gone, states⟩
    · rw [found, states]
    · rw [gone, states]
  · have absent : ∀ assignment ∈ ledger.preludeFor laneListing, assignment.name ≠ name :=
      fun assignment member own => present ⟨assignment, member, own⟩
    rw [get?_assign_of_absent absent]
    cases found : ledger.entries.get? name with
    | some line =>
        by_contra differs
        refine absent (.declare name line) (List.mem_append_left _ ?_) rfl
        refine List.mem_filterMap.mpr ⟨(name, line), OrderedMap.get?_eq_some.mp found, ?_⟩
        simp only
        rw [if_neg (by rwa [← same])]
    | none =>
        by_contra held
        refine absent (.unset name) (List.mem_append_right _ ?_) rfl
        refine List.mem_filterMap.mpr ⟨name, OrderedMap.mem_keys.mpr ?_, ?_⟩
        · rw [same] at held
          simpa [OrderedMap.has, Option.isSome_iff_ne_none] using held
        · simp [OrderedMap.has, found]

theorem get?_foldl_recordLine (before : Listing) (lines : List (String × String))
    (recorded : Listing × Bool) (distinct : (lines.map Prod.fst).Nodup) (name : String) :
    ((lines.foldl (ShellExportLedger.recordLine before) recorded).1).get? name =
      match lines.lookup name with
      | some line => if before.get? name = some line then recorded.1.get? name else some line
      | none => recorded.1.get? name := by
  induction lines generalizing recorded with
  | nil => rfl
  | cons entry rest ih =>
      obtain ⟨key, line⟩ := entry
      obtain ⟨fresh, distinct⟩ := List.nodup_cons.mp distinct
      rw [List.foldl_cons, ih _ distinct]
      by_cases own : name = key
      · subst own
        have gone : rest.lookup name = none := List.lookup_eq_none_iff.mpr fun other member => by
          simpa using fun same : name = other.1 =>
            fresh (List.mem_map.mpr ⟨other, member, same.symm⟩)
        rw [gone]
        simp only [List.lookup_cons, beq_self_eq_true]
        unfold ShellExportLedger.recordLine
        split
        · rfl
        · split
          next same => exact same
          next => simp
      · have kept : (ShellExportLedger.recordLine before recorded (key, line)).1.get? name =
            recorded.1.get? name := by
          unfold ShellExportLedger.recordLine
          split
          · rfl
          · split
            · rfl
            · simp [OrderedMap.get?_set, own]
        have other : (name == key) = false := beq_false_of_ne own
        simp only [List.lookup_cons, other, kept]

theorem get?_foldl_recordMissing (next : Listing) (names : List String)
    (recorded : Listing × Bool) (name : String) :
    ((names.foldl (ShellExportLedger.recordMissing next) recorded).1).get? name =
      if name ∈ names ∧ next.has name = false then none else recorded.1.get? name := by
  induction names generalizing recorded with
  | nil => simp
  | cons first rest ih =>
      rw [List.foldl_cons, ih]
      have step : (ShellExportLedger.recordMissing next recorded first).1.get? name =
          if name = first ∧ next.has name = false then none else recorded.1.get? name := by
        unfold ShellExportLedger.recordMissing
        split
        next idle =>
          split
          next own =>
            obtain ⟨rfl, gone⟩ := own
            rw [gone] at idle
            exact OrderedMap.has_eq_false.mp (idle.resolve_left (by simp))
          next => rfl
        next taken =>
          rw [not_or, Bool.not_eq_true] at taken
          rw [OrderedMap.get?_erase]
          by_cases own : name = first
          · subst own
            simp [taken.1]
          · simp [own]
      rw [step]
      by_cases own : name = first <;> by_cases inside : name ∈ rest <;>
        cases next.has name <;> simp [own, inside]

theorem lookup_entries (listing : Listing) (name : String) :
    listing.entries.lookup name = listing.get? name := by
  unfold OrderedMap.get?
  induction listing.entries with
  | nil => rfl
  | cons entry rest ih =>
      obtain ⟨key, line⟩ := entry
      by_cases own : name = key
      · subst own
        simp
      · have other : (name == key) = false := beq_false_of_ne own
        rw [List.lookup_cons, other, List.find?_cons_of_neg (by simpa using Ne.symm own)]
        exact ih

theorem foldl_unchanged {α : Type} {step : Listing × Bool → α → Listing × Bool}
    (kept : ∀ recorded item, step recorded item = recorded ∨ (step recorded item).2 = true)
    (items : List α) (recorded : Listing × Bool) :
    items.foldl step recorded = recorded ∨ (items.foldl step recorded).2 = true := by
  induction items generalizing recorded with
  | nil => exact .inl rfl
  | cons item rest ih =>
      rw [List.foldl_cons]
      rcases kept recorded item with same | changed
      · rw [same]
        exact ih recorded
      · rcases ih (step recorded item) with same | later
        · exact .inr (by rw [same, changed])
        · exact .inr later

namespace ShellExportLedger

theorem recordLine_kept (before : Listing) (recorded : Listing × Bool) (entry : String × String) :
    recordLine before recorded entry = recorded ∨ (recordLine before recorded entry).2 = true := by
  unfold recordLine
  split
  · exact .inl rfl
  · split
    · exact .inl rfl
    · exact .inr rfl

theorem recordMissing_kept (next : Listing) (recorded : Listing × Bool) (name : String) :
    recordMissing next recorded name = recorded ∨ (recordMissing next recorded name).2 = true := by
  unfold recordMissing
  split
  · exact .inl rfl
  · exact .inr rfl

/-- What the session holds after a report: the lane's value where the lane has changed it. -/
theorem get?_record (previous : Listing) (next : Listing) (name : String) :
    (ledger.record (some previous) next).entries.get? name =
      if previous.get? name = next.get? name then
        (ledger.seed (some previous) next).entries.get? name
      else next.get? name := by
  simp only [record, Option.getD_some, get?_foldl_recordMissing,
    get?_foldl_recordLine _ _ _ next.distinct, lookup_entries, OrderedMap.mem_keys]
  cases found : next.get? name with
  | some line =>
      have present : next.has name = true := OrderedMap.has_eq_true.mpr ⟨line, found⟩
      simp [present]
  | none =>
      have absent : next.has name = false := OrderedMap.has_eq_false.mpr found
      cases held : previous.get? name with
      | none => simp [OrderedMap.has, held]
      | some line => simp [absent, OrderedMap.has_eq_true.mpr ⟨line, held⟩]

theorem baseline_record (previous : Option Listing) (next : Listing) :
    (ledger.record previous next).baseline = (ledger.seed previous next).baseline := rfl

/-- The version moves whenever the session changes. -/
theorem version_record (previous : Listing) (next : Listing) :
    ledger.currentVersion ≤ (ledger.record (some previous) next).currentVersion ∧
      ((ledger.record (some previous) next).currentVersion = ledger.currentVersion →
        ∀ name, (ledger.record (some previous) next).entries.get? name =
          (ledger.seed (some previous) next).entries.get? name) := by
  have version : (ledger.seed (some previous) next).currentVersion = ledger.currentVersion := by
    unfold seed
    split <;> rfl
  have lines := foldl_unchanged (recordLine_kept previous) next.entries
    ((ledger.seed (some previous) next).entries, false)
  have all := foldl_unchanged (recordMissing_kept next) previous.keys
    (next.entries.foldl (recordLine previous)
      ((ledger.seed (some previous) next).entries, false))
  simp only [record, Option.getD_some, version]
  set recorded := next.entries.foldl (recordLine previous)
    ((ledger.seed (some previous) next).entries, false)
  set final := previous.keys.foldl (recordMissing next) recorded
  cases changed : final.2 with
  | true => simp
  | false =>
      refine ⟨by simp, fun _ name => ?_⟩
      have first : final = recorded := all.resolve_right (by simp [changed])
      rw [first] at changed ⊢
      rw [lines.resolve_right (by simp [changed])]

end ShellExportLedger

end PiAdaptative.ShellExports
