import PiAdaptative.ShellExports.Ledger
import PiAdaptative.Foundations.Execution
import Mathlib.Logic.Function.Basic

/-!
# The lanes of a shell session

Each lane is one shell at a time.  A command starts with the prelude the ledger gives its lane, and
ends with a frame that carries the lane's first listing once and its listing when it has changed.
Every overlapped command of two lanes that a report could confuse is named by a condition on the
command that completes; without one the lanes agree with the session.
-/

namespace PiAdaptative.ShellExports

structure Shell where
  childEnv : Listing
  environment : Listing
  /-- `__PI_EXPORT_SNAPSHOT`: the listing after the last command, once a command has started. -/
  snapshot : Option Listing

structure Running where
  /-- `__pi_exports_before`: the listing before the first command of the shell. -/
  before : Option Listing

/-- `PersistentShellSession`, as far as exports go. -/
structure Lane where
  child : Option Shell
  lastReportedExports : Option Listing
  appliedExportVersion : Nat
  running : Option Running

def idleLane : Lane where
  child := none
  lastReportedExports := none
  appliedExportVersion := 0
  running := none

/-- The lanes of one session and their ledger. -/
structure State where
  lanes : String → Lane
  exports : ShellExportLedger

/-- A session without shells. -/
def initialState : State where
  lanes _ := idleLane
  exports := emptyLedger

/-- Whether two listings are the same text. -/
def sameListing (left right : Listing) : Bool :=
  (left.entries.all fun entry => right.get? entry.1 = some entry.2) &&
    right.entries.all fun entry => left.get? entry.1 = some entry.2

/-- An empty text is not sent. -/
def sent (listing : Listing) : Option Listing :=
  if listing.entries = [] then none else some listing

namespace Lane

/-- `spawnChild`, unless the shell of the lane runs with this environment already. -/
def ensureChild (lane : Lane) (env : Listing) : Lane :=
  match lane.child with
  | some shell => if sameListing shell.childEnv env then lane else spawned
  | none => spawned
where
  spawned : Lane :=
    { idleLane with child := some { childEnv := env, environment := env, snapshot := none } }

def start (lane : Lane) (exports : ShellExportLedger) (env : Listing) : Lane :=
  let ready := lane.ensureChild env
  let behind := exports.currentVersion ≠ ready.appliedExportVersion
  let exportPrelude := if behind then exports.preludeFor ready.lastReportedExports else []
  { ready with
    appliedExportVersion :=
      if behind then exports.currentVersion else ready.appliedExportVersion
    running := some {
      before := (ready.child.filter fun shell => shell.snapshot.isNone).bind fun shell =>
        sent shell.environment }
    child := ready.child.map fun shell =>
      { shell with
        snapshot := some (shell.snapshot.getD shell.environment)
        environment := assign shell.environment exportPrelude } }

end Lane

structure Frame where
  exportsBefore : Option Listing
  exports : Option Listing

/-- The frame of a command, and its shell afterwards. -/
def finishCommand (running : Running) (shell : Shell) (effects : List Assignment) :
    Frame × Shell :=
  let environment := assign shell.environment effects
  let unchanged := shell.snapshot.any fun snapshot => sameListing environment snapshot
  ({ exportsBefore := running.before
     exports := if unchanged then none else sent environment },
    { shell with
      environment
      snapshot := if unchanged then shell.snapshot else some environment })

/-- `finishTracked`: the lane and the ledger take over what a frame carries. -/
def finishTracked (lane : Lane) (exports : ShellExportLedger) (frame : Frame) :
    Lane × ShellExportLedger :=
  let lastReportedExports := frame.exportsBefore <|> lane.lastReportedExports
  match frame.exports <|> frame.exportsBefore with
  | none => ({ lane with lastReportedExports, running := none }, exports)
  | some listing =>
      let recorded := exports.record lastReportedExports listing
      ({ lane with
          lastReportedExports := frame.exports <|> lastReportedExports
          appliedExportVersion := recorded.currentVersion
          running := none }, recorded)

inductive Event where
  | prewarm (lane : String) (env : Listing)
  | start (lane : String) (env : Listing)
  /-- A command has made its assignments and its frame has arrived. -/
  | complete (lane : String) (effects : List Assignment)
  /-- The shell of a lane is gone: killed, timed out, retired or ended by its command. -/
  | kill (lane : String)

/-- The state after an event, where the event can happen. -/
def next (state : State) : Event → Option State
  | .prewarm name env =>
      let lane := state.lanes name
      if lane.running.isSome then none
      else some { state with lanes := Function.update state.lanes name (lane.ensureChild env) }
  | .start name env =>
      let lane := state.lanes name
      if lane.running.isSome then none
      else some { state with
        lanes := Function.update state.lanes name (lane.start state.exports env) }
  | .complete name effects =>
      let lane := state.lanes name
      match lane.running, lane.child with
      | some running, some shell =>
          let (frame, shell) := finishCommand running shell effects
          let (finished, exports) :=
            finishTracked { lane with child := some shell } state.exports frame
          some { lanes := Function.update state.lanes name finished, exports }
      | _, _ => none
  | .kill name => some { state with lanes := Function.update state.lanes name idleLane }

def Step (before : State) (event : Event) (after : State) : Prop := next before event = some after

section Session

variable (spawnEnvironment : Listing)

/-- What the session exports: the ledger's entries, and before any report what every lane is
spawned with. -/
def State.sessionSet (state : State) (name : String) : Option String :=
  if state.exports.baseline.isSome then state.exports.entries.get? name
  else spawnEnvironment.get? name

/-- What the shell of a lane exports. -/
def State.held (state : State) (lane name : String) : Option String :=
  (state.lanes lane).child.bind fun shell => shell.environment.get? name

/-- What a step does to the session set.  A command that completes changes it by exactly what it has
itself changed since its prelude, and a command that starts sees it. -/
def Agrees (before : State) (event : Event) : Prop :=
  ∀ after, next before event = some after →
    match event with
    | .complete lane effects => ∀ shell, (before.lanes lane).child = some shell → ∀ name,
        after.sessionSet spawnEnvironment name =
          if shell.environment.get? name = (assign shell.environment effects).get? name then
            before.sessionSet spawnEnvironment name
          else (assign shell.environment effects).get? name
    | .start lane _ => ∀ name, after.held lane name = after.sessionSet spawnEnvironment name ∧
        after.sessionSet spawnEnvironment name = before.sessionSet spawnEnvironment name
    | _ => ∀ name,
        after.sessionSet spawnEnvironment name = before.sessionSet spawnEnvironment name

/-- The listing the next report of a lane is measured against. -/
def Lane.measure (lane : Lane) : Option Listing :=
  (lane.running.bind Running.before) <|> lane.lastReportedExports

/-- An event that the reports do not carry: a shell is spawned with another environment, a command
leaves no exports, or some name of which the session holds another value than the lane ends with is
one that the command has not changed or has put back to the value last reported, and the lane
reports or the command has changed it. -/
def Breaks (state : State) : Event → Prop
  | .prewarm lane env => Spawns (state.lanes lane) env
  | .start lane env => Spawns (state.lanes lane) env
  | .complete lane effects => ∃ shell reported, (state.lanes lane).child = some shell ∧
      (state.lanes lane).measure = some reported ∧
      let started := shell.environment
      let final := assign shell.environment effects
      final.entries = [] ∨ ∃ name,
        state.sessionSet spawnEnvironment name ≠ final.get? name ∧
          (started.get? name = final.get? name ∨ reported.get? name = final.get? name) ∧
          (((state.lanes lane).running.bind Running.before).isSome = true ∨
            (∃ other, reported.get? other ≠ final.get? other) ∨
              started.get? name ≠ final.get? name)
  | .kill _ => False
where
  /-- A shell is spawned with another environment than the others, or with none. -/
  Spawns (lane : Lane) (env : Listing) : Prop :=
    (∀ shell, lane.child = some shell → sameListing shell.childEnv env = false) ∧
      (env.entries = [] ∨ ∃ name, env.get? name ≠ spawnEnvironment.get? name)

theorem sameListing_iff {left right : Listing} :
    sameListing left right = true ↔ ∀ name, left.get? name = right.get? name := by
  simp only [sameListing, Bool.and_eq_true, List.all_eq_true, decide_eq_true_eq]
  constructor
  · rintro ⟨forward, backward⟩ name
    cases found : left.get? name with
    | some line => exact (forward _ (OrderedMap.get?_eq_some.mp found)).symm
    | none =>
        cases other : right.get? name with
        | none => rfl
        | some line =>
            have present := backward _ (OrderedMap.get?_eq_some.mp other)
            rw [found] at present
            cases present
  · intro same
    refine ⟨fun entry member => ?_, fun entry member => ?_⟩
    · rw [← same]
      exact OrderedMap.get?_eq_some.mpr member
    · rw [same]
      exact OrderedMap.get?_eq_some.mpr member

/-- What the ledger keeps about the environment the lanes are spawned with. -/
structure LedgerSound (state : State) : Prop where
  unreported : state.exports.baseline = none → state.exports.currentVersion = 0
  baseline : ∀ baseline, state.exports.baseline = some baseline →
    ∀ name, baseline.get? name = spawnEnvironment.get? name
  unchanged : state.exports.currentVersion = 0 →
    ∀ name, state.sessionSet spawnEnvironment name = spawnEnvironment.get? name

/-- What a lane keeps between its commands and while a command runs. -/
structure LaneSound (state : State) (lane : Lane) : Prop where
  applied : lane.appliedExportVersion ≤ state.exports.currentVersion
  fresh : state.exports.baseline = none → lane.lastReportedExports = none
  childless : lane.child = none → lane.running = none ∧ lane.lastReportedExports = none
  exporting : ∀ shell, lane.child = some shell → shell.snapshot = none →
    shell.environment.entries ≠ []
  idle : ∀ shell, lane.child = some shell → lane.running = none →
    shell.snapshot.isSome = lane.lastReportedExports.isSome ∧
      (∀ snapshot, shell.snapshot = some snapshot →
        ∀ name, snapshot.get? name = shell.environment.get? name) ∧
      ∀ name, shell.environment.get? name =
        (lane.lastReportedExports.getD spawnEnvironment).get? name
  /-- A command that runs will be measured against the snapshot of its shell. -/
  running : ∀ shell running, lane.child = some shell → lane.running = some running →
    (∀ before, running.before = some before →
      ∀ name, before.get? name = spawnEnvironment.get? name) ∧
    ∃ snapshot reported, shell.snapshot = some snapshot ∧ lane.measure = some reported ∧
      ∀ name, snapshot.get? name = reported.get? name
  /-- A lane that is not behind holds the session set. -/
  synced : ∀ shell, lane.child = some shell →
    lane.appliedExportVersion = state.exports.currentVersion →
    ∀ name, shell.environment.get? name = state.sessionSet spawnEnvironment name

/-- What holds between two steps. -/
structure Invariant (state : State) : Prop where
  ledger : LedgerSound spawnEnvironment state
  lanes : ∀ name, LaneSound spawnEnvironment state (state.lanes name)

variable {spawnEnvironment}

variable {state : State}

theorem laneSound_idleLane : LaneSound spawnEnvironment state idleLane where
  applied := Nat.zero_le _
  fresh _ := rfl
  childless _ := ⟨rfl, rfl⟩
  exporting _ found := by cases found
  idle _ found := by cases found
  running _ _ found := by cases found
  synced _ found := by cases found

theorem invariant_initialState : Invariant spawnEnvironment initialState where
  ledger := ⟨fun _ => rfl, fun _ found => (by cases found), fun _ _ => rfl⟩
  lanes _ := laneSound_idleLane

variable {lane : Lane}

/-- A lane is unaffected when another one changes nothing of the ledger. -/
theorem Invariant.update (invariant : Invariant spawnEnvironment state) (name : String)
    (sound : LaneSound spawnEnvironment state lane) :
    Invariant spawnEnvironment { state with lanes := Function.update state.lanes name lane } where
  ledger := { invariant.ledger with }
  lanes other := by
    by_cases same : other = name
    · subst same
      simp only [Function.update_self]
      exact { sound with }
    · simp only [Function.update_of_ne same]
      exact { invariant.lanes other with }

theorem ensureChild_cases (lane : Lane) (env : Listing) :
    (lane.ensureChild env = lane ∧ ∃ shell, lane.child = some shell) ∨
      ((∀ shell, lane.child = some shell → sameListing shell.childEnv env = false) ∧
        lane.ensureChild env = Lane.ensureChild.spawned env) := by
  unfold Lane.ensureChild
  cases found : lane.child with
  | none => exact .inr ⟨fun _ none => by (cases none), rfl⟩
  | some shell =>
      simp only
      split
      next => exact .inl ⟨rfl, shell, rfl⟩
      next other =>
        refine .inr ⟨fun found' same => ?_, rfl⟩
        cases same
        simpa using other

/-- A lane gets a shell like the others. -/
theorem LaneSound.ensureChild (ledger : LedgerSound spawnEnvironment state) (sound : LaneSound spawnEnvironment state lane) {env : Listing}
    (alike : ¬Breaks.Spawns spawnEnvironment lane env) (idle : lane.running = none) :
    LaneSound spawnEnvironment state (lane.ensureChild env) ∧
      (lane.ensureChild env).running = none ∧ ∃ shell, (lane.ensureChild env).child = some shell := by
  rcases ensureChild_cases lane env with ⟨same, present⟩ | ⟨other, same⟩
  · rw [same]
    exact ⟨sound, idle, present⟩
  · have spawns : env.entries ≠ [] ∧ ∀ name, env.get? name = spawnEnvironment.get? name := by
      unfold Breaks.Spawns at alike
      push Not at alike
      exact alike other
    rw [same]
    refine ⟨⟨Nat.zero_le _, fun _ => rfl, fun none => ?_, fun shell found _ => ?_,
      fun shell found _ => ?_, fun shell running found runs => ?_, fun shell found current name => ?_⟩,
      rfl, _, rfl⟩
    · cases none
    · cases found
      exact spawns.1
    · cases found
      exact ⟨rfl, fun _ none => (by cases none), spawns.2⟩
    · cases runs
    · cases found
      exact (spawns.2 name).trans (ledger.unchanged current.symm name).symm

theorem firstListing (shell : Shell) :
    (((some shell).filter fun shell : Shell => shell.snapshot.isNone).bind fun shell =>
      sent shell.environment) = if shell.snapshot.isNone then sent shell.environment else none := by
  cases unset : shell.snapshot.isNone <;> simp [Option.filter, unset]

/-- A command starts with the session set. -/
theorem LaneSound.start (ledger : LedgerSound spawnEnvironment state)
    (sound : LaneSound spawnEnvironment state lane) {env : Listing}
    (alike : ¬Breaks.Spawns spawnEnvironment lane env) (idle : lane.running = none) :
    LaneSound spawnEnvironment state (lane.start state.exports env) ∧
      ∃ shell, (lane.start state.exports env).child = some shell ∧
        ∀ name, shell.environment.get? name = state.sessionSet spawnEnvironment name := by
  obtain ⟨ready, calm, shell, child⟩ := sound.ensureChild ledger alike idle
  obtain ⟨snapshots, kept, holds⟩ := ready.idle shell child calm
  set prepared := lane.ensureChild env with preparedDef
  have sees : ∀ name, (assign shell.environment
      (if state.exports.currentVersion ≠ prepared.appliedExportVersion then
        state.exports.preludeFor prepared.lastReportedExports else [])).get? name =
      state.sessionSet spawnEnvironment name := by
    intro name
    split
    next behind =>
      have reported : state.exports.baseline ≠ none := fun none =>
        behind (by
          rw [ledger.unreported none]
          exact (Nat.le_zero.mp (ledger.unreported none ▸ ready.applied)).symm)
      obtain ⟨baseline, seeded⟩ := Option.ne_none_iff_exists'.mp reported
      have alike : ∀ other, shell.environment.get? other =
          (prepared.lastReportedExports.getD (state.exports.baseline.getD .empty)).get? other := by
        intro other
        rw [holds other, seeded]
        cases prepared.lastReportedExports with
        | none => exact (ledger.baseline baseline seeded other).symm
        | some listing => rfl
      rw [get?_assign_preludeFor state.exports alike, State.sessionSet, seeded]
      rfl
    next current =>
      rw [not_not] at current
      exact ready.synced shell child current.symm name
  refine ⟨⟨?_, fun none => ready.fresh none, fun none => ?_, fun started found unset => ?_,
    fun started found none => ?_, fun started running found runs => ?_,
    fun started found _ name => ?_⟩, ?_⟩
  · simp only [Lane.start, ← preparedDef]
    split
    · exact Nat.le_refl _
    · exact ready.applied
  · simp [Lane.start, ← preparedDef, child] at none
  · simp only [Lane.start, ← preparedDef, child, Option.map_some, Option.some.injEq] at found
    subst found
    cases unset
  · simp [Lane.start] at none
  · simp only [Lane.start, ← preparedDef, child, Option.map_some, Option.some.injEq] at found runs
    subst found runs
    cases unset : shell.snapshot with
    | none =>
        have unreported : prepared.lastReportedExports = none := by
          simpa [unset] using snapshots.symm
        have sends : sent shell.environment = some shell.environment :=
          if_neg (ready.exporting shell child unset)
        simp only [unreported, Option.getD_none] at holds
        refine ⟨fun before same name => ?_, shell.environment, shell.environment, rfl, ?_,
          fun _ => rfl⟩
        · rw [firstListing, unset, Option.isNone_none, if_pos rfl, sends] at same
          cases same
          exact holds name
        · simp only [Lane.measure, Lane.start, ← preparedDef, child, Option.bind_some]
          rw [firstListing, unset, Option.isNone_none, if_pos rfl, sends]
          rfl
    | some snapshot =>
        obtain ⟨reported, found⟩ := Option.isSome_iff_exists.mp
          (snapshots.symm.trans (by rw [unset]; rfl) : prepared.lastReportedExports.isSome = true)
        refine ⟨fun before same => ?_, snapshot, reported, rfl, ?_, fun name => ?_⟩
        · rw [firstListing, unset, Option.isNone_some, if_neg (by simp)] at same
          cases same
        · simp only [Lane.measure, Lane.start, ← preparedDef, child, Option.bind_some]
          rw [firstListing, unset, Option.isNone_some, if_neg (by simp)]
          exact found
        · rw [kept snapshot unset name, holds name, found]
          rfl
  · simp only [Lane.start, ← preparedDef, child, Option.map_some, Option.some.injEq] at found
    subst found
    exact sees name
  · have form : (lane.start state.exports env).child = some { shell with
        snapshot := some (shell.snapshot.getD shell.environment)
        environment := assign shell.environment
          (if state.exports.currentVersion ≠ prepared.appliedExportVersion then
            state.exports.preludeFor prepared.lastReportedExports else []) } := by
      simp only [Lane.start, ← preparedDef, child, Option.map_some]
    exact ⟨_, form, sees⟩

theorem sessionSet_seed {reported : Listing} (listing : Listing)
    (seeds : state.exports.baseline = none →
      ∀ name, reported.get? name = spawnEnvironment.get? name) (name : String) :
    (state.exports.seed (some reported) listing).baseline.isSome = true ∧
      (state.exports.seed (some reported) listing).entries.get? name =
        state.sessionSet spawnEnvironment name := by
  unfold State.sessionSet ShellExportLedger.seed
  cases found : state.exports.baseline with
  | none => exact ⟨rfl, seeds found name⟩
  | some baseline => exact ⟨by simp [found], by simp⟩

theorem sessionSet_record {reported : Listing} (listing : Listing)
    (lanes : String → Lane) (seeds : state.exports.baseline = none →
      ∀ name, reported.get? name = spawnEnvironment.get? name) (name : String) :
    ({ lanes, exports := state.exports.record (some reported) listing } : State).sessionSet
        spawnEnvironment name =
      if reported.get? name = listing.get? name then state.sessionSet spawnEnvironment name
      else listing.get? name := by
  obtain ⟨present, entries⟩ := sessionSet_seed listing seeds name
  rw [State.sessionSet]
  simp only [ShellExportLedger.baseline_record, present, if_true, ShellExportLedger.get?_record,
    entries]

theorem sessionSet_of_version {reported : Listing} (listing : Listing)
    (lanes : String → Lane) (seeds : state.exports.baseline = none →
      ∀ name, reported.get? name = spawnEnvironment.get? name)
    (same : (state.exports.record (some reported) listing).currentVersion =
      state.exports.currentVersion) (name : String) :
    ({ lanes, exports := state.exports.record (some reported) listing } : State).sessionSet
        spawnEnvironment name = state.sessionSet spawnEnvironment name := by
  obtain ⟨present, entries⟩ := sessionSet_seed listing seeds name
  rw [State.sessionSet]
  simp only [ShellExportLedger.baseline_record, present, if_true]
  rw [(ShellExportLedger.version_record _ _ _).2 same name, entries]

/-- A report keeps the ledger sound. -/
theorem LedgerSound.record (ledger : LedgerSound spawnEnvironment state)
    {reported : Listing} (listing : Listing) (lanes : String → Lane)
    (seeds : state.exports.baseline = none →
      ∀ name, reported.get? name = spawnEnvironment.get? name) :
    LedgerSound spawnEnvironment
      { lanes, exports := state.exports.record (some reported) listing } where
  unreported none := by
    obtain ⟨present, -⟩ := sessionSet_seed listing seeds ""
    rw [← ShellExportLedger.baseline_record, none] at present
    cases present
  baseline baseline found := by
    have seeded : (state.exports.seed (some reported) listing).baseline = some baseline := found
    unfold ShellExportLedger.seed at seeded
    cases before : state.exports.baseline with
    | none =>
        simp only [before, Option.getD_some, Option.some.injEq] at seeded
        exact seeded ▸ seeds before
    | some old =>
        simp only [before, Option.some.injEq] at seeded
        exact seeded ▸ ledger.baseline old before
  unchanged none name := by
    have grows := (ShellExportLedger.version_record state.exports reported listing).1
    have zero : state.exports.currentVersion = 0 := Nat.le_zero.mp (none ▸ grows)
    calc _ = state.sessionSet spawnEnvironment name :=
          sessionSet_of_version listing lanes seeds (none.trans zero.symm) name
      _ = spawnEnvironment.get? name := ledger.unchanged zero name

/-- A lane that has not heard of a report stays behind unless the report changed nothing. -/
theorem LaneSound.record
    (sound : LaneSound spawnEnvironment state lane) {reported : Listing} (listing : Listing)
    (lanes : String → Lane) (seeds : state.exports.baseline = none →
      ∀ name, reported.get? name = spawnEnvironment.get? name) :
    LaneSound spawnEnvironment
      { lanes, exports := state.exports.record (some reported) listing } lane where
  applied := Nat.le_trans sound.applied
    (ShellExportLedger.version_record state.exports reported listing).1
  fresh none := by
    obtain ⟨present, -⟩ := sessionSet_seed listing seeds ""
    rw [← ShellExportLedger.baseline_record, none] at present
    cases present
  childless := sound.childless
  exporting := sound.exporting
  idle := sound.idle
  running := sound.running
  synced shell found current name := by
    have grows := (ShellExportLedger.version_record state.exports reported listing).1
    have same : (state.exports.record (some reported) listing).currentVersion =
        state.exports.currentVersion := Nat.le_antisymm (current ▸ sound.applied) grows
    rw [sessionSet_of_version listing lanes seeds same name]
    exact sound.synced shell found (current.trans same) name

variable {effects : List Assignment} {name : String} {shell : Shell}

/-- What an unbroken command says about a name the lane and the session disagree on. -/
theorem settled_of_unbroken (unbroken : ¬Breaks spawnEnvironment state (.complete name effects))
    {reported : Listing} (child : (state.lanes name).child = some shell)
    (measured : (state.lanes name).measure = some reported) :
    (assign shell.environment effects).entries ≠ [] ∧
      ∀ other, state.sessionSet spawnEnvironment other ≠
          (assign shell.environment effects).get? other →
        (shell.environment.get? other ≠ (assign shell.environment effects).get? other ∧
          reported.get? other ≠ (assign shell.environment effects).get? other) ∨
        ((state.lanes name).running.bind Running.before = none ∧
          (∀ any, reported.get? any = (assign shell.environment effects).get? any) ∧
          shell.environment.get? other = (assign shell.environment effects).get? other) := by
  refine ⟨fun none => unbroken ⟨shell, reported, child, measured, .inl none⟩,
    fun other differs => ?_⟩
  by_contra against
  rw [not_or] at against
  refine unbroken ⟨shell, reported, child, measured, .inr ⟨other, differs, ?_, ?_⟩⟩
  · by_contra changed
    rw [not_or] at changed
    exact against.1 changed
  · by_contra silent
    push Not at silent
    exact against.2 ⟨by simpa using silent.1, silent.2.1, silent.2.2⟩

/-- A lane that reports agrees with the session afterwards. -/
theorem sessionSet_complete
    (unbroken : ¬Breaks spawnEnvironment state (.complete name effects))
    {reported : Listing} (child : (state.lanes name).child = some shell)
    (measured : (state.lanes name).measure = some reported)
    (reports : (state.lanes name).running.bind Running.before ≠ none ∨
      ∃ any, reported.get? any ≠ (assign shell.environment effects).get? any)
    (listing : Listing) (lanes : String → Lane)
    (same : ∀ any, listing.get? any = (assign shell.environment effects).get? any)
    (seeds : state.exports.baseline = none →
      ∀ any, reported.get? any = spawnEnvironment.get? any) (other : String) :
    ({ lanes, exports := state.exports.record (some reported) listing } : State).sessionSet
        spawnEnvironment other = (assign shell.environment effects).get? other ∧
      (shell.environment.get? other = (assign shell.environment effects).get? other →
        (assign shell.environment effects).get? other =
          state.sessionSet spawnEnvironment other) := by
  have settled : state.sessionSet spawnEnvironment other ≠
      (assign shell.environment effects).get? other →
      shell.environment.get? other ≠ (assign shell.environment effects).get? other ∧
        reported.get? other ≠ (assign shell.environment effects).get? other := by
    intro differs
    rcases (settled_of_unbroken unbroken child measured).2 other differs with changed | silent
    · exact changed
    · obtain ⟨nothing, equal, -⟩ := silent
      rcases reports with first | ⟨any, change⟩
      · exact absurd nothing first
      · exact absurd (equal any) change
  rw [sessionSet_record listing lanes seeds, same]
  refine ⟨?_, fun untouched => ?_⟩
  · split
    next equal =>
      by_contra differs
      exact (settled differs).2 equal
    next => rfl
  · by_contra differs
    exact (settled (Ne.symm differs)).1 untouched

theorem finishTracked_of_reports (lane : Lane) (exports : ShellExportLedger) {frame : Frame}
    {reported listing : Listing}
    (measured : (frame.exportsBefore <|> lane.lastReportedExports) = some reported)
    (sends : (frame.exports <|> frame.exportsBefore) = some listing) :
    finishTracked lane exports frame =
      ({ lane with
          lastReportedExports := some listing
          appliedExportVersion := (exports.record (some reported) listing).currentVersion
          running := none }, exports.record (some reported) listing) := by
  have last : (frame.exports <|> frame.exportsBefore <|> lane.lastReportedExports) =
      some listing := by
    cases carried : frame.exports with
    | some own => simpa [carried] using sends
    | none =>
        cases first : frame.exportsBefore with
        | some own => simpa [carried, first] using sends
        | none => simp [carried, first] at sends
  rw [measured] at last
  simp only [finishTracked, sends, measured, last]

theorem finishTracked_of_silent (lane : Lane) (exports : ShellExportLedger) :
    finishTracked lane exports { exportsBefore := none, exports := none } =
      ({ lane with running := none }, exports) := by
  simp [finishTracked]

/-- A lane after a report that it agrees with. -/
theorem laneSound_reported {listing : Listing}
    (idle : lane.running = none) (child : lane.child = some shell)
    (reported : lane.lastReportedExports = some listing)
    (applied : lane.appliedExportVersion = state.exports.currentVersion)
    (seeded : state.exports.baseline ≠ none)
    (snapshot : ∃ snapshot, shell.snapshot = some snapshot ∧
      ∀ name, snapshot.get? name = shell.environment.get? name)
    (same : ∀ name, listing.get? name = shell.environment.get? name)
    (holds : ∀ name, shell.environment.get? name = state.sessionSet spawnEnvironment name) :
    LaneSound spawnEnvironment state lane := by
  obtain ⟨held, found, equal⟩ := snapshot
  refine ⟨Nat.le_of_eq applied, fun none => absurd none seeded, fun none => ?_,
    fun other found' unset => ?_, fun other found' _ => ?_, fun other running _ runs => ?_,
    fun other found' _ => ?_⟩
  · rw [child] at none
    cases none
  · rw [child] at found'
    cases found'
    rw [found] at unset
    cases unset
  · rw [child] at found'
    cases found'
    rw [found, reported]
    refine ⟨rfl, fun other same' => ?_, fun name => (same name).symm⟩
    cases same'
    exact equal
  · rw [idle] at runs
    cases runs
  · rw [child] at found'
    cases found'
    exact holds

/-- A command whose frame carries a listing. -/
theorem Invariant.reported (invariant : Invariant spawnEnvironment state)
    (unbroken : ¬Breaks spawnEnvironment state (.complete name effects)) {running : Running}
    {shell left : Shell} {reported listing : Listing} {frame : Frame}
    (runs : (state.lanes name).running = some running)
    (child : (state.lanes name).child = some shell)
    (measured : (state.lanes name).measure = some reported)
    (seeds : state.exports.baseline = none →
      ∀ any, reported.get? any = spawnEnvironment.get? any)
    (before : frame.exportsBefore = running.before)
    (sends : (frame.exports <|> frame.exportsBefore) = some listing)
    (reports : running.before ≠ none ∨
      ∃ any, reported.get? any ≠ (assign shell.environment effects).get? any)
    (ends : left.environment = assign shell.environment effects)
    (snapshot : ∃ snapshot, left.snapshot = some snapshot ∧
      ∀ any, snapshot.get? any = left.environment.get? any)
    (same : ∀ any, listing.get? any = left.environment.get? any) {after : State}
    (finishes : after = { lanes := Function.update state.lanes name (finishTracked
        { state.lanes name with child := some left } state.exports frame).1
                          exports := (finishTracked
        { state.lanes name with child := some left } state.exports frame).2 }) :
    Invariant spawnEnvironment after ∧ ∀ other,
      after.sessionSet spawnEnvironment other =
        if shell.environment.get? other = (assign shell.environment effects).get? other then
          state.sessionSet spawnEnvironment other
        else (assign shell.environment effects).get? other := by
  rw [finishTracked_of_reports _ _
    (by simpa [Lane.measure, runs, before] using measured) sends] at finishes
  have agrees := sessionSet_complete unbroken child measured (by simpa [runs] using reports) listing
    after.lanes (ends ▸ same) seeds
  subst finishes
  refine ⟨⟨invariant.ledger.record listing _ seeds, fun other => ?_⟩, fun other => ?_⟩
  · by_cases own : other = name
    · subst own
      simp only [Function.update_self]
      refine laneSound_reported rfl rfl rfl rfl ?_ snapshot same
        fun any => (ends ▸ (agrees any).1.symm)
      obtain ⟨present, -⟩ := sessionSet_seed listing seeds ""
      exact Option.isSome_iff_ne_none.mp present
    · simp only [Function.update_of_ne own]
      exact (invariant.lanes other).record listing _ seeds
  · obtain ⟨final, untouched⟩ := agrees other
    split
    next equal => exact final.trans (untouched equal)
    next => exact final

/-- A command whose frame carries nothing. -/
theorem Invariant.silent (invariant : Invariant spawnEnvironment state)
    (unbroken : ¬Breaks spawnEnvironment state (.complete name effects)) {running : Running} {reported snapshot : Listing}
    (runs : (state.lanes name).running = some running)
    (child : (state.lanes name).child = some shell)
    (measured : (state.lanes name).measure = some reported) (before : running.before = none)
    (left : Shell)
    (held : left.snapshot = some snapshot)
    (equal : ∀ any, snapshot.get? any = reported.get? any)
    (kept : ∀ any, (assign shell.environment effects).get? any = reported.get? any)
    (ends : left.environment = assign shell.environment effects) {after : State}
    (finishes : after = State.mk (Function.update state.lanes name
      { state.lanes name with child := some left, running := none }) state.exports) :
    Invariant spawnEnvironment after ∧ ∀ other,
      after.sessionSet spawnEnvironment other =
        if shell.environment.get? other = (assign shell.environment effects).get? other then
          state.sessionSet spawnEnvironment other
        else (assign shell.environment effects).get? other := by
  have sound := invariant.lanes name
  have last : (state.lanes name).lastReportedExports = some reported := by
    simpa [Lane.measure, runs, before] using measured
  -- a name the lane and the session disagree on has been left alone
  have untouched : ∀ other, state.sessionSet spawnEnvironment other ≠
      (assign shell.environment effects).get? other →
      shell.environment.get? other = (assign shell.environment effects).get? other := by
    intro other differs
    rcases (settled_of_unbroken unbroken child measured).2 other differs with changed | same
    · exact absurd (kept other).symm changed.2
    · exact same.2.2
  subst finishes
  refine ⟨invariant.update name ?_, fun other => ?_⟩
  · refine ⟨sound.applied, sound.fresh, fun none => (by cases none), fun found same unset => ?_,
      fun found same _ => ?_, fun found running _ starts => (by cases starts),
      fun found same current other => ?_⟩
    · cases same
      rw [held] at unset
      cases unset
    · cases same
      simp only [held, last, ends]
      refine ⟨rfl, fun other same any => ?_, kept⟩
      cases same
      exact (equal any).trans (kept any).symm
    · cases same
      rw [ends]
      by_contra differs
      have left := untouched other (Ne.symm differs)
      exact differs (left ▸ sound.synced shell child current other)
  · split
    next => rfl
    next changed =>
      by_contra differs
      exact changed (untouched other differs)

/-- A command that completes keeps the invariant and changes the session by what it has changed. -/
theorem Invariant.complete {state after : State} (invariant : Invariant spawnEnvironment state)
    (unbroken : ¬Breaks spawnEnvironment state (.complete name effects))
    (taken : next state (.complete name effects) = some after) :
    Invariant spawnEnvironment after ∧
      ∀ shell, (state.lanes name).child = some shell → ∀ other,
        after.sessionSet spawnEnvironment other =
          if shell.environment.get? other = (assign shell.environment effects).get? other then
            state.sessionSet spawnEnvironment other
          else (assign shell.environment effects).get? other := by
  have sound := invariant.lanes name
  unfold next at taken
  simp only at taken
  split at taken
  case h_2 => cases taken
  next running shell runs child =>
  obtain ⟨first, snapshot, reported, held, measured, equal⟩ := sound.running shell running child runs
  obtain ⟨present, settled⟩ := settled_of_unbroken unbroken child measured
  have seeds : state.exports.baseline = none →
      ∀ any, reported.get? any = spawnEnvironment.get? any := by
    intro none
    rw [Lane.measure, runs, sound.fresh none, Option.bind_some] at measured
    exact first reported (by simpa using measured)
  rw [child]
  suffices Invariant spawnEnvironment after ∧ ∀ other,
      after.sessionSet spawnEnvironment other =
        if shell.environment.get? other = (assign shell.environment effects).get? other then
          state.sessionSet spawnEnvironment other
        else (assign shell.environment effects).get? other from
    ⟨this.1, fun other same => by cases same; exact this.2⟩
  set final := assign shell.environment effects with finalDef
  simp only [finishCommand, ← finalDef, held, Option.any_some, Option.some.injEq] at taken
  cases unchanged : sameListing final snapshot with
  | false =>
      have sends : sent final = some final := if_neg present
      have reports : ∃ any, reported.get? any ≠ final.get? any := by
        by_contra none
        push Not at none
        rw [sameListing_iff.mpr fun any => (none any).symm.trans (equal any).symm] at unchanged
        cases unchanged
      simp only [unchanged, Bool.false_eq_true, if_false, sends] at taken
      exact invariant.reported unbroken runs child measured seeds rfl rfl (.inr reports) rfl
        ⟨final, rfl, fun _ => rfl⟩ (fun _ => rfl) taken.symm
  | true =>
      have kept : ∀ any, final.get? any = reported.get? any := fun any =>
        (sameListing_iff.mp unchanged any).trans (equal any)
      simp only [unchanged, if_true] at taken
      cases beginning : running.before with
      | some before =>
          have same : before = reported := by
            simpa [Lane.measure, runs, beginning] using measured
          exact invariant.reported unbroken runs child measured seeds rfl
            (by simpa using beginning) (.inl (by simp [beginning])) rfl
            ⟨snapshot, rfl, fun any => (sameListing_iff.mp unchanged any).symm⟩
            (fun any => (same ▸ (kept any).symm)) taken.symm
      | none =>
          simp only [beginning, finishTracked_of_silent] at taken
          exact invariant.silent unbroken runs child measured beginning
            { shell with environment := final, snapshot := some snapshot } rfl equal kept rfl
            taken.symm

/-- One step of a session keeps the invariant and agrees. -/
theorem Invariant.step {state after : State} (invariant : Invariant spawnEnvironment state)
    {event : Event} (unbroken : ¬Breaks spawnEnvironment state event)
    (taken : Step state event after) :
    Invariant spawnEnvironment after ∧ Agrees spawnEnvironment state event := by
  have only : ∀ {final}, next state event = some final → final = after := fun same =>
    Option.some.inj (same.symm.trans taken)
  cases event with
  | prewarm name env =>
      simp only [Step, next, Option.ite_none_left_eq_some, Option.some.injEq] at taken
      obtain ⟨idle, rfl⟩ := taken
      obtain ⟨sound, -⟩ := (invariant.lanes name).ensureChild invariant.ledger unbroken
        (by simpa using idle)
      refine ⟨invariant.update name sound, fun final same other => ?_⟩
      rw [only same]
      rfl
  | start name env =>
      simp only [Step, next, Option.ite_none_left_eq_some, Option.some.injEq] at taken
      obtain ⟨idle, rfl⟩ := taken
      obtain ⟨sound, shell, child, sees⟩ := (invariant.lanes name).start invariant.ledger unbroken
        (by simpa using idle)
      refine ⟨invariant.update name sound, fun final same other => ?_⟩
      rw [only same]
      refine ⟨?_, rfl⟩
      simp only [State.held, Function.update_self, child, Option.bind_some]
      exact sees other
  | complete name effects =>
      obtain ⟨sound, changes⟩ := invariant.complete unbroken taken
      refine ⟨sound, fun final same => ?_⟩
      rw [only same]
      exact changes
  | kill name =>
      cases taken
      refine ⟨invariant.update name laneSound_idleLane, fun final same other => ?_⟩
      rw [only same]
      rfl

/-- In a run without breaking steps every command starts with the session set and changes it by
exactly what it has itself changed. -/
theorem lanes_agree {history : List (State × Event)} {target : State}
    (run : Execution Step initialState history target)
    (unbroken : ∀ entry ∈ history, ¬Breaks spawnEnvironment entry.1 entry.2) :
    ∀ entry ∈ history, Agrees spawnEnvironment entry.1 entry.2 := by
  have calm := run.restrict (fun before event => ¬Breaks spawnEnvironment before event) unbroken
  have sound := calm.invariant
    (fun history state => Invariant spawnEnvironment state ∧
      ∀ entry ∈ history, Agrees spawnEnvironment entry.1 entry.2)
    ⟨invariant_initialState, fun _ none => by cases none⟩ ?_
  · exact sound.2
  · intro earlier before event after _ ⟨invariant, agreed⟩ taken
    obtain ⟨kept, agrees⟩ := invariant.step taken.2 taken.1
    refine ⟨kept, fun entry member => ?_⟩
    rcases List.mem_append.mp member with old | new
    · exact agreed entry old
    · obtain rfl := List.mem_singleton.mp new
      exact agrees

end Session

def smallEnvironment : Listing := OrderedMap.empty.set "HOME" "declare -x HOME=\"/home\""

/-- One lane exports a variable. -/
def exportingRun : Option (List (State × Event) × State) :=
  Execution.trace next initialState [.start "a" smallEnvironment,
    .complete "a" [.declare "MODE" "declare -x MODE=\"1\""]]

theorem exporting_run_agrees : ∃ history target, exportingRun = some (history, target) ∧
    ∀ entry ∈ history, Agrees smallEnvironment entry.1 entry.2 := by
  have reached : exportingRun = some (_, _) := rfl
  refine ⟨_, _, reached, lanes_agree (Execution.of_trace reached) ?_⟩
  simp only [List.forall_mem_cons, List.not_mem_nil, false_imp_iff, implies_true, and_true]
  refine ⟨?_, ?_⟩
  · rintro ⟨-, none | ⟨name, differs⟩⟩
    · cases none
    · exact differs rfl
  · rintro ⟨shell, reported, child, measured, none | ⟨name, differs, same, -⟩⟩
    · cases child
      revert none
      decide +kernel
    · cases child
      cases measured
      rcases same with untouched | unreported
      · exact differs untouched
      · exact differs unreported

/-- Whether a shell is spawned with one environment. -/
def Event.spawnsWith (spawnEnvironment : Listing) : Event → Bool
  | .prewarm _ env => sameListing env spawnEnvironment
  | .start _ env => sameListing env spawnEnvironment
  | _ => true

/-- A lane starts after a sibling's export and runs while the sibling changes it. -/
def overlappingRun : Option (List (State × Event) × State) :=
  Execution.trace next initialState [.start "b" smallEnvironment,
    .complete "b" [.declare "MODE" "declare -x MODE=\"1\""],
    .start "a" smallEnvironment, .start "b" smallEnvironment,
    .complete "b" [.declare "MODE" "declare -x MODE=\"2\""], .complete "a" []]

/-- Whether a step changes `MODE` in the session although its command has not. -/
def revertsMode (before : State) : Event → Bool
  | .complete lane effects =>
      (before.lanes lane).child.any fun shell =>
        (next before (.complete lane effects)).any fun after =>
          shell.environment.get? "MODE" = (assign shell.environment effects).get? "MODE" &&
            !decide (after.sessionSet smallEnvironment "MODE" =
              before.sessionSet smallEnvironment "MODE")
  | _ => false

/-- The report of a lane that only replayed an export reverts what a sibling has made of it. -/
theorem replayed_export_reverts_sibling : ¬∀ spawnEnvironment history target,
    Execution Step initialState history target →
      (∀ entry ∈ history, entry.2.spawnsWith spawnEnvironment = true) →
      ∀ entry ∈ history, Agrees spawnEnvironment entry.1 entry.2 := by
  intro agree
  have found : overlappingRun.any (fun run =>
      (run.1.all fun entry => entry.2.spawnsWith smallEnvironment) &&
        run.1.any fun entry => revertsMode entry.1 entry.2) = true := by decide +kernel
  cases reached : overlappingRun with
  | none => simp [reached] at found
  | some run =>
      obtain ⟨history, target⟩ := run
      rw [reached, Option.any_some, Bool.and_eq_true, List.all_eq_true, List.any_eq_true] at found
      obtain ⟨alike, ⟨before, event⟩, member, reverts⟩ := found
      have agrees := agree smallEnvironment history target (Execution.of_trace reached)
        alike _ member
      cases event with
      | complete lane effects =>
          simp only [revertsMode, Option.any_eq_true, Bool.and_eq_true, Bool.not_eq_true',
            decide_eq_true_eq, decide_eq_false_iff_not] at reverts
          obtain ⟨shell, child, after, taken, untouched, changed⟩ := reverts
          have same := agrees after taken shell child "MODE"
          rw [if_pos untouched] at same
          exact changed same
      | _ => simp [revertsMode] at reverts

end PiAdaptative.ShellExports
