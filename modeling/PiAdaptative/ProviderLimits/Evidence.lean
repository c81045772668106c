import PiAdaptative.ProviderLimits.Store
import PiAdaptative.Foundations.Execution
import Mathlib.Data.Rat.Lemmas
import Mathlib.Tactic.Linarith
import Mathlib.Tactic.NormNum

/-!
# The evidence behind the limits

Beside the files stands what they stand for: every limit recorded for a key that no clear has named
since.  The files tell the strongest live evidence as long as no clear takes the record that hides
another limit, and no live limit is recorded under a file name that two accounts share.
-/

namespace PiAdaptative.ProviderLimits

/-- A limit that was recorded for a key. -/
structure Limit where
  key : String
  limitedUntil : Rat
  reason : ProviderLimitReason
  recordedAt : Rat
  deriving DecidableEq

/-- The files of the agent directory, and the evidence. -/
structure State where
  limits : LimitFiles
  usage : String → Option ProviderUsageRecord
  /-- The limits recorded so far that no clear has named. -/
  evidence : List Limit
  clock : Rat

/-- An agent directory without records. -/
def emptyState (clock : Rat) : State where
  limits _ := none
  usage _ := none
  evidence := []
  clock := clock

structure Event where
  options : ProviderLimitStoreOptions
  call : Call
  nowMs : Rat
  checked : Rat

/-- Whether a clear of a key names a limit. -/
def Limit.named (limit : Limit) (key : String) (reasons : Option (List ProviderLimitReason))
    (recordedBefore : RecordedBefore) : Bool :=
  limit.key = key && names reasons recordedBefore limit.reason limit.recordedAt

namespace State

def perform (state : State) (event : Event) : State :=
  match event.call with
  | .record key input =>
      { state with
        limits := (record event.options state.limits key input event.nowMs event.checked).2
        evidence := state.evidence ++ [{
          key
          limitedUntil := input.limitedUntil
          reason := input.reason
          recordedAt := event.nowMs }]
        clock := event.checked }
  | .clear key reasons recordedBefore =>
      { state with
        limits := (clear state.limits key reasons recordedBefore event.checked).2
        evidence := state.evidence.filter fun limit => !limit.named key reasons recordedBefore
        clock := event.checked }
  | .read key =>
      { state with
        limits := (read state.limits state.usage key event.checked).2
        clock := event.checked }
  | .recordUsage key rateLimits credits =>
      { state with
        usage := Function.update state.usage (safeSegment key) (some {
          provider := key
          recordedAt := event.nowMs
          pid := event.options.pid
          rateLimits
          credits })
        clock := event.checked }

/-- The limits of a key that have neither been cleared nor passed. -/
def live (state : State) (key : String) (now : Rat) : List Limit :=
  state.evidence.filter fun limit => limit.key = key ∧ now < limit.limitedUntil

/-- What `read` returns for a key is the strongest live evidence of that key. -/
structure Reads (state : State) (key : String) (now : Rat) : Prop where
  exactly : (read state.limits state.usage key now).1.isSome = true ↔ state.live key now ≠ []
  latest : ∀ found, (read state.limits state.usage key now).1 = some found →
    (∃ limit ∈ state.live key now, limit.limitedUntil = found.limitedUntil) ∧
      ∀ limit ∈ state.live key now, limit.limitedUntil ≤ found.limitedUntil

/-- Every account reads its own evidence, now and later. -/
def Right (accounts : List String) (state : State) : Prop :=
  ∀ key ∈ accounts, ∀ now, state.clock ≤ now → state.Reads key now

end State

/-- Snapshots of the usage windows report no credits. -/
def Call.withoutCredits : Call → Prop
  | .recordUsage _ _ (some credits) => credits.unlimited = false ∧ credits.hasCredits = false
  | _ => True

/-- A call for one of the accounts, by a clock that does not go back. -/
def Step (accounts : List String) (before : State) (event : Event) (after : State) : Prop :=
  event.call.key ∈ accounts ∧ event.call.withoutCredits ∧ before.clock ≤ event.nowMs ∧
    event.nowMs ≤ event.checked ∧ after = before.perform event

/-- A call that hides or loses evidence: a live limit is recorded under a file name that another
account shares, or a clear takes the stored record and spares another live limit of its key. -/
def Breaks (accounts : List String) (state : State) (event : Event) : Prop :=
  match event.call with
  | .record key input =>
      event.checked < input.limitedUntil ∧
        ∃ other ∈ accounts, other ≠ key ∧ safeSegment other = safeSegment key
  | .clear key reasons recordedBefore =>
      ∃ stored, state.limits (safeSegment key) = some stored ∧
        event.checked < stored.limitedUntil ∧
        names reasons recordedBefore stored.reason stored.recordedAt = true ∧
        ∃ limit ∈ state.evidence, limit.key = key ∧ event.checked < limit.limitedUntil ∧
          names reasons recordedBefore limit.reason limit.recordedAt = false
  | _ => False

theorem readPath_live {files : LimitFiles} {path : String} {now : Rat}
    {stored : ProviderLimitRecord} (found : files path = some stored)
    (holds : now < stored.limitedUntil) : readPath files path now = (some stored, files) := by
  simp [readPath, found, not_le.mpr holds]

theorem readPath_dead {files : LimitFiles} {path : String} {now : Rat}
    (dead : ∀ stored, files path = some stored → stored.limitedUntil ≤ now) :
    readPath files path now = (none, Function.update files path none) := by
  unfold readPath
  split
  next absent => rw [← absent, Function.update_eq_self]
  next stored found => rw [if_pos (dead stored found)]

theorem live_or_dead (files : LimitFiles) (path : String) (now : Rat) :
    (∃ stored, files path = some stored ∧ now < stored.limitedUntil) ∨
      ∀ stored, files path = some stored → stored.limitedUntil ≤ now := by
  by_cases dead : ∀ stored, files path = some stored → stored.limitedUntil ≤ now
  · exact .inr dead
  · push Not at dead
    exact .inl dead

/-- What is stored after a record: the old record when it lasts as long, else the new one. -/
theorem record_cases (options : ProviderLimitStoreOptions) (files : LimitFiles) (key : String)
    (input : LimitInput) (nowMs checked : Rat) :
    (∃ stored, files (safeSegment key) = some stored ∧ checked < stored.limitedUntil ∧
      input.limitedUntil ≤ stored.limitedUntil ∧
        (record options files key input nowMs checked).2 = files) ∨
    ((∀ stored, files (safeSegment key) = some stored → stored.limitedUntil ≤ checked ∨
        stored.limitedUntil < input.limitedUntil) ∧
      (record options files key input nowMs checked).2 = Function.update files (safeSegment key)
        (some (writtenRecord options key input nowMs))) := by
  rcases live_or_dead files (safeSegment key) checked with ⟨stored, found, holds⟩ | dead
  · by_cases longer : input.limitedUntil ≤ stored.limitedUntil
    · refine .inl ⟨stored, found, holds, longer, ?_⟩
      simp [record, readPath_live found holds, longer]
    · refine .inr ⟨fun other same => .inr ?_, ?_⟩
      · cases found.symm.trans same
        exact not_le.mp longer
      · simp [record, readPath_live found holds, longer]
  · refine .inr ⟨fun stored found => .inl (dead stored found), ?_⟩
    simp [record, readPath_dead dead]

/-- What is stored after a clear. -/
theorem clear_cases (files : LimitFiles) (key : String)
    (reasons : Option (List ProviderLimitReason)) (recordedBefore : RecordedBefore) (now : Rat) :
    (∃ stored, files (safeSegment key) = some stored ∧ now < stored.limitedUntil ∧
      names reasons recordedBefore stored.reason stored.recordedAt = false ∧
        (clear files key reasons recordedBefore now).2 = files) ∨
    ((∀ stored, files (safeSegment key) = some stored → stored.limitedUntil ≤ now ∨
        names reasons recordedBefore stored.reason stored.recordedAt = true) ∧
      (clear files key reasons recordedBefore now).2 =
        Function.update files (safeSegment key) none) := by
  rcases live_or_dead files (safeSegment key) now with ⟨stored, found, holds⟩ | dead
  · cases named : names reasons recordedBefore stored.reason stored.recordedAt with
    | false =>
        refine .inl ⟨stored, found, holds, named, ?_⟩
        simp only [names, Bool.and_eq_false_iff] at named
        rcases named with old | other
        · simp only [clear, readPath_live found holds, if_pos old]
        · simp only [clear, readPath_live found holds, if_pos other, ite_self]
    | true =>
        refine .inr ⟨fun other same => .inr ?_, ?_⟩
        · cases found.symm.trans same
          exact named
        · simp only [names, Bool.and_eq_true] at named
          simp only [clear, readPath_live found holds]
          rw [if_neg (by simp [named.1]), if_neg (by simpa using named.2)]
  · refine .inr ⟨fun stored found => .inl (dead stored found), ?_⟩
    simp [clear, readPath_dead dead]

/-- No other account shares the file of a key. -/
def Private (accounts : List String) (key : String) : Prop :=
  ∀ other ∈ accounts, safeSegment other = safeSegment key → other = key

def NoCredits (usage : String → Option ProviderUsageRecord) : Prop :=
  ∀ path reported, usage path = some reported → ∀ credits, reported.credits = some credits →
    credits.unlimited = false ∧ credits.hasCredits = false

/-- What the files keep of the evidence. -/
structure Invariant (accounts : List String) (state : State) : Prop where
  /-- A live record is evidence of an account with a file of its own. -/
  stored : ∀ path found, state.limits path = some found → state.clock < found.limitedUntil →
    path = safeSegment found.provider ∧ Private accounts found.provider ∧
      ∃ limit ∈ state.evidence, limit.key = found.provider ∧
        limit.limitedUntil = found.limitedUntil ∧ limit.reason = found.reason ∧
          limit.recordedAt = found.recordedAt
  covered : ∀ limit ∈ state.evidence, state.clock < limit.limitedUntil →
    Private accounts limit.key ∧ ∃ found, state.limits (safeSegment limit.key) = some found ∧
      limit.limitedUntil ≤ found.limitedUntil
  credits : NoCredits state.usage

theorem invariant_emptyState (accounts : List String) (clock : Rat) :
    Invariant accounts (emptyState clock) where
  stored _ _ found := by cases found
  covered _ member := by simp [emptyState] at member
  credits _ _ found := by cases found

theorem read_eq {usage : String → Option ProviderUsageRecord} (credits : NoCredits usage)
    (files : LimitFiles) (key : String) (now : Rat) :
    (read files usage key now).1 = (readPath files (safeSegment key) now).1 := by
  have uncovered : ∀ found, coveredByCredits usage found = false := fun found => by
    unfold coveredByCredits
    cases reported : usage (safeSegment found.provider) with
    | none => simp
    | some record =>
        cases account : record.credits with
        | none => simp [account]
        | some credit =>
            have none := credits _ record reported credit account
            simp [account, none]
  unfold read
  obtain ⟨found, kept⟩ := readPath files (safeSegment key) now
  cases found <;> simp [uncovered]

variable {key : String}

theorem State.mem_live {state : State} {now : Rat} {limit : Limit} :
    limit ∈ state.live key now ↔
      limit ∈ state.evidence ∧ limit.key = key ∧ now < limit.limitedUntil := by
  simp [State.live]

variable {accounts : List String}

/-- The files tell the strongest live evidence. -/
theorem Invariant.right {state : State} (invariant : Invariant accounts state) :
    state.Right accounts := by
  intro key member now later
  have reads := read_eq invariant.credits state.limits key now
  rcases live_or_dead state.limits (safeSegment key) now with ⟨found, stored, holds⟩ | dead
  · rw [readPath_live stored holds] at reads
    obtain ⟨path, alone, limit, kept, same, until_, -⟩ := invariant.stored _ found stored
      (lt_of_le_of_lt later holds)
    have own : key = found.provider := alone key member path
    have inside : limit ∈ state.live key now :=
      State.mem_live.mpr ⟨kept, same.trans own.symm, until_.symm ▸ holds⟩
    refine ⟨?_, fun other answer => ?_⟩
    · rw [reads]
      simpa using List.ne_nil_of_mem inside
    · rw [reads] at answer
      cases answer
      refine ⟨⟨limit, inside, until_⟩, fun second member => ?_⟩
      obtain ⟨kept, same, holds⟩ := State.mem_live.mp member
      obtain ⟨-, cover, file, longer⟩ := invariant.covered second kept
        (lt_of_le_of_lt later holds)
      rw [same, stored] at file
      cases file
      exact longer
  · rw [readPath_dead dead] at reads
    have none : state.live key now = [] := by
      refine List.eq_nil_iff_forall_not_mem.mpr fun limit member => ?_
      obtain ⟨kept, same, holds⟩ := State.mem_live.mp member
      obtain ⟨-, found, stored, longer⟩ := invariant.covered limit kept
        (lt_of_le_of_lt later holds)
      rw [same] at stored
      exact absurd (dead found stored) (not_le.mpr (lt_of_lt_of_le holds longer))
    exact ⟨by simp [reads, none], fun found answer => by simp [reads] at answer⟩

theorem read_files (files : LimitFiles) (usage : String → Option ProviderUsageRecord)
    (key : String) (now : Rat) : (read files usage key now).2 = files ∨
      ((∀ stored, files (safeSegment key) = some stored → stored.limitedUntil ≤ now) ∧
        (read files usage key now).2 = Function.update files (safeSegment key) none) := by
  rcases live_or_dead files (safeSegment key) now with ⟨stored, found, holds⟩ | dead
  · exact .inl (by simp [read, readPath_live found holds])
  · exact .inr ⟨dead, by simp [read, readPath_dead dead]⟩

section Steps

variable {accounts : List String} {state : State}

variable {nowMs checked : Rat}

section

variable (invariant : Invariant accounts state)
include invariant

/-- A limit is recorded for an account with a file of its own, or has passed already. -/
theorem Invariant.record (options : ProviderLimitStoreOptions) (input : LimitInput)
    (later : state.clock ≤ checked)
    (alone : checked < input.limitedUntil → Private accounts key) :
    Invariant accounts (state.perform
      { options, call := .record key input, nowMs, checked }) := by
  rcases record_cases options state.limits key input nowMs checked with
    ⟨stored, found, holds, longer, files⟩ | ⟨shorter, files⟩
  · refine ⟨fun path record same live => ?_, fun limit kept live => ?_, invariant.credits⟩
    · simp only [State.perform, files] at same
      obtain ⟨place, alone, limit, inside, rest⟩ := invariant.stored path record same
        (lt_of_le_of_lt later live)
      exact ⟨place, alone, limit, List.mem_append_left _ inside, rest⟩
    · simp only [State.perform, files]
      rcases List.mem_append.mp kept with old | new
      · exact invariant.covered limit old (lt_of_le_of_lt later live)
      · obtain rfl := List.mem_singleton.mp new
        exact ⟨alone live, stored, found, longer⟩
  · refine ⟨fun path record same live => ?_, fun limit kept live => ?_, invariant.credits⟩
    · simp only [State.perform, files] at same
      by_cases place : path = safeSegment key
      · subst place
        rw [Function.update_self] at same
        cases same
        exact ⟨rfl, alone live, _, List.mem_append_right _ (List.mem_singleton.mpr rfl), rfl, rfl,
          rfl, rfl⟩
      · rw [Function.update_of_ne place] at same
        obtain ⟨place, alone, limit, inside, rest⟩ := invariant.stored path record same
          (lt_of_le_of_lt later live)
        exact ⟨place, alone, limit, List.mem_append_left _ inside, rest⟩
    · simp only [State.perform, files]
      rcases List.mem_append.mp kept with old | new
      · obtain ⟨lone, found, stored, longer⟩ := invariant.covered limit old
          (lt_of_le_of_lt later live)
        refine ⟨lone, ?_⟩
        by_cases place : safeSegment limit.key = safeSegment key
        · rw [place, Function.update_self]
          refine ⟨_, rfl, ?_⟩
          rcases shorter found (place ▸ stored) with dead | less
          · exact absurd (lt_of_lt_of_le live longer) (not_lt.mpr dead)
          · exact longer.trans less.le
        · rw [Function.update_of_ne place]
          exact ⟨found, stored, longer⟩
      · obtain rfl := List.mem_singleton.mp new
        exact ⟨alone live, _, Function.update_self _ _ _, le_refl _⟩

/-- A clear takes a record only together with all the live evidence of its key. -/
theorem Invariant.clear
    (member : key ∈ accounts) (options : ProviderLimitStoreOptions)
    (reasons : Option (List ProviderLimitReason)) (recordedBefore : RecordedBefore) (later : state.clock ≤ checked)
    (spared : ∀ stored, state.limits (safeSegment key) = some stored →
      checked < stored.limitedUntil →
      names reasons recordedBefore stored.reason stored.recordedAt = true →
      ∀ limit ∈ state.evidence, limit.key = key → checked < limit.limitedUntil →
        names reasons recordedBefore limit.reason limit.recordedAt = true) :
    Invariant accounts (state.perform
      { options, call := .clear key reasons recordedBefore, nowMs, checked }) := by
  rcases clear_cases state.limits key reasons recordedBefore checked with
    ⟨stored, found, holds, unnamed, files⟩ | ⟨taken, files⟩
  · refine ⟨fun path record same live => ?_, fun limit kept live => ?_, invariant.credits⟩
    · simp only [State.perform, files] at same
      obtain ⟨place, alone, limit, inside, key', until_, reason, recordedAt⟩ :=
        invariant.stored path record same (lt_of_le_of_lt later live)
      refine ⟨place, alone, limit, List.mem_filter.mpr ⟨inside, ?_⟩, key', until_, reason,
        recordedAt⟩
      by_cases own : limit.key = key
      · rw [place, ← key', own, found] at same
        cases same
        simp [Limit.named, reason, recordedAt, unnamed]
      · simp [Limit.named, own]
    · simp only [State.perform, files]
      exact invariant.covered limit (List.mem_filter.mp kept).1 (lt_of_le_of_lt later live)
  · refine ⟨fun path record same live => ?_, fun limit kept live => ?_, invariant.credits⟩
    · simp only [State.perform, files] at same
      have place : path ≠ safeSegment key := by
        rintro rfl
        rw [Function.update_self] at same
        cases same
      rw [Function.update_of_ne place] at same
      obtain ⟨place', alone, limit, inside, key', rest⟩ :=
        invariant.stored path record same (lt_of_le_of_lt later live)
      refine ⟨place', alone, limit, List.mem_filter.mpr ⟨inside, ?_⟩, key', rest⟩
      have other : limit.key ≠ key := fun own => place (by rw [place', ← key', own])
      simp [Limit.named, other]
    · simp only [State.perform, files]
      obtain ⟨inside, unnamed⟩ := List.mem_filter.mp kept
      obtain ⟨lone, found, stored, longer⟩ := invariant.covered limit inside
        (lt_of_le_of_lt later live)
      refine ⟨lone, ?_⟩
      by_cases place : safeSegment limit.key = safeSegment key
      · have own : limit.key = key := (lone key member place.symm).symm
        have holds := lt_of_lt_of_le live longer
        rw [own] at stored
        rcases taken found stored with dead | named
        · exact absurd holds (not_lt.mpr dead)
        · have all := spared found stored holds named limit inside own live
          simp [Limit.named, own, all] at unnamed
      · rw [Function.update_of_ne place]
        exact ⟨found, stored, longer⟩

theorem Invariant.read (key : String) (options : ProviderLimitStoreOptions)
    (later : state.clock ≤ checked) :
    Invariant accounts (state.perform { options, call := .read key, nowMs, checked }) := by
  rcases read_files state.limits state.usage key checked with files | ⟨dead, files⟩
  · refine ⟨fun path record same live => ?_, fun limit kept live => ?_, invariant.credits⟩
    · simp only [State.perform, files] at same
      exact invariant.stored path record same (lt_of_le_of_lt later live)
    · simp only [State.perform, files]
      exact invariant.covered limit kept (lt_of_le_of_lt later live)
  · refine ⟨fun path record same live => ?_, fun limit kept live => ?_, invariant.credits⟩
    · simp only [State.perform, files] at same
      have place : path ≠ safeSegment key := by
        rintro rfl
        rw [Function.update_self] at same
        cases same
      rw [Function.update_of_ne place] at same
      exact invariant.stored path record same (lt_of_le_of_lt later live)
    · simp only [State.perform, files]
      obtain ⟨lone, found, stored, longer⟩ := invariant.covered limit kept
        (lt_of_le_of_lt later live)
      refine ⟨lone, found, ?_, longer⟩
      have place : safeSegment limit.key ≠ safeSegment key := fun same =>
        absurd (lt_of_lt_of_le live longer) (not_lt.mpr (dead found (same ▸ stored)))
      rw [Function.update_of_ne place]
      exact stored

theorem Invariant.recordUsage (key : String)
    (options : ProviderLimitStoreOptions) (rateLimits : List Json)
    {credits : Option ProviderCredits} (later : state.clock ≤ checked)
    (without : ∀ account, credits = some account →
      account.unlimited = false ∧ account.hasCredits = false) :
    Invariant accounts (state.perform
      { options, call := .recordUsage key rateLimits credits, nowMs, checked }) where
  stored path record same live := invariant.stored path record same (lt_of_le_of_lt later live)
  covered limit kept live := invariant.covered limit kept (lt_of_le_of_lt later live)
  credits path usage found account reported := by
    simp only [State.perform] at found
    by_cases place : path = safeSegment key
    · subst place
      rw [Function.update_self] at found
      cases found
      exact without account reported
    · rw [Function.update_of_ne place] at found
      exact invariant.credits path usage found account reported

end

end Steps

/-- A step that does not break it keeps the invariant. -/
theorem Invariant.step {before after : State} {event : Event}
    (invariant : Invariant accounts before) (taken : Step accounts before event after)
    (unbroken : ¬Breaks accounts before event) : Invariant accounts after := by
  obtain ⟨member, without, earlier, checked, rfl⟩ := taken
  obtain ⟨options, call, nowMs, final⟩ := event
  have later : before.clock ≤ final := earlier.trans checked
  cases call with
  | record key input =>
      refine invariant.record options input later fun live other inside same => ?_
      by_contra different
      exact unbroken ⟨live, other, inside, different, same⟩
  | clear key reasons recordedBefore =>
      refine invariant.clear member options reasons recordedBefore later
        fun stored found live named limit kept own holds => ?_
      by_contra unnamed
      exact unbroken ⟨stored, found, live, named, limit, kept, own, holds, by simpa using unnamed⟩
  | read key => exact invariant.read key options later
  | recordUsage key rateLimits credits =>
      refine invariant.recordUsage key options rateLimits later fun account reported => ?_
      subst reported
      exact without

/-- A step that breaks the invariant leaves an account that does not read its own evidence. -/
theorem Invariant.broken {before after : State} {event : Event}
    (invariant : Invariant accounts before) (taken : Step accounts before event after)
    (breaking : Breaks accounts before event) : ¬after.Right accounts := by
  obtain ⟨member, -, earlier, checked, rfl⟩ := taken
  obtain ⟨options, call, nowMs, final⟩ := event
  have later : before.clock ≤ final := earlier.trans checked
  intro right
  cases call with
  | record key input =>
      obtain ⟨live, other, inside, different, same⟩ := breaking
      set after := before.perform
        { options, call := .record key input, nowMs, checked := final } with afterDef
      have reads := right other inside final (le_refl _)
      have none : after.live other final = [] := by
        refine List.eq_nil_iff_forall_not_mem.mpr fun limit found => ?_
        obtain ⟨kept, own, holds⟩ := State.mem_live.mp found
        rcases List.mem_append.mp kept with old | new
        · obtain ⟨lone, -⟩ := invariant.covered limit old (lt_of_le_of_lt later holds)
          rw [own] at lone
          exact different (lone key member same.symm).symm
        · obtain rfl := List.mem_singleton.mp new
          exact different own.symm
      have stored : ∃ found, after.limits (safeSegment other) = some found ∧
          final < found.limitedUntil := by
        simp only [afterDef, State.perform, same]
        rcases record_cases options before.limits key input nowMs final with
          ⟨stored, found, holds, -, files⟩ | ⟨-, files⟩
        · exact ⟨stored, by rw [files, found], holds⟩
        · exact ⟨_, by rw [files, Function.update_self], live⟩
      obtain ⟨found, file, holds⟩ := stored
      have answer : (ProviderLimits.read after.limits after.usage other final).1 = some found := by
        have uses : after.usage = before.usage := rfl
        rw [uses, read_eq invariant.credits, readPath_live file holds]
      exact absurd (reads.exactly.mp (by rw [answer]; rfl)) (by simp [none])
  | clear key reasons recordedBefore =>
      obtain ⟨stored, found, live, named, limit, kept, own, holds, unnamed⟩ := breaking
      set after := before.perform
        { options, call := .clear key reasons recordedBefore, nowMs, checked := final }
        with afterDef
      have reads := right key member final (le_refl _)
      have remains : limit ∈ after.live key final :=
        State.mem_live.mpr ⟨List.mem_filter.mpr ⟨kept, by simp [Limit.named, unnamed]⟩, own, holds⟩
      have removed : after.limits (safeSegment key) = none := by
        simp only [afterDef, State.perform]
        rcases clear_cases before.limits key reasons recordedBefore final with
          ⟨other, same, -, spared, -⟩ | ⟨-, files⟩
        · cases found.symm.trans same
          rw [named] at spared
          cases spared
        · rw [files, Function.update_self]
      have answer : (ProviderLimits.read after.limits after.usage key final).1 = none := by
        have uses : after.usage = before.usage := rfl
        rw [uses, read_eq invariant.credits]
        simp [readPath, removed]
      have some := reads.exactly.mpr (List.ne_nil_of_mem remains)
      rw [answer] at some
      cases some
  | read key => exact breaking
  | recordUsage key rateLimits credits => exact breaking

/-- Along a run every account reads the strongest live evidence of its own exactly when no call
records a live limit under a shared file name, and no clear takes the stored record of a key while
it spares another live limit of that key. -/
theorem reads_strongest_evidence_iff (accounts : List String) (clock : Rat)
    {history : List (State × Event)} {target : State}
    (run : Execution (Step accounts) (emptyState clock) history target) :
    ((∀ earlier entry later, history = earlier ++ entry :: later → entry.1.Right accounts) ∧
        target.Right accounts) ↔
      ∀ entry ∈ history, ¬Breaks accounts entry.1 entry.2 :=
  run.throughout_iff (fun _ state => Invariant accounts state)
    (fun _ state => state.Right accounts) (Breaks accounts) (invariant_emptyState accounts clock)
    (fun invariant => invariant.right) (fun invariant taken => invariant.step taken)
    (fun invariant taken breaking => invariant.broken taken breaking)

def process : ProviderLimitStoreOptions where
  pid := 1
  sessionId := none

def refusedUntil (key : String) (limitedUntil nowMs : Rat) (reason : ProviderLimitReason) :
    Event where
  options := process
  call := .record key { limitedUntil, reason, detail := none }
  nowMs := nowMs
  checked := nowMs

/-- A request that started at a time succeeds. -/
def succeeded (key : String) (start nowMs : Rat) : Event where
  options := process
  call := .clear key (some [.rateLimit, .overloaded]) (.time start)
  nowMs := nowMs
  checked := nowMs

/-- An account that is refused until 100. -/
def refusedOnce : State := (emptyState 0).perform (refusedUntil "openai" 100 1 .rateLimit)

theorem step_refusedOnce :
    Step ["openai"] (emptyState 0) (refusedUntil "openai" 100 1 .rateLimit) refusedOnce :=
  ⟨List.mem_singleton.mpr rfl, trivial, by norm_num [refusedUntil, emptyState], le_refl _, rfl⟩

theorem refused_account_reads_its_limit : refusedOnce.Right ["openai"] := by
  refine ((reads_strongest_evidence_iff ["openai"] 0 (.single step_refusedOnce)).mpr
    fun entry member => ?_).2
  obtain rfl := List.mem_singleton.mp member
  rintro ⟨-, other, inside, different, -⟩
  exact different (List.mem_singleton.mp inside)

/-- A refusal for a full usage window comes after the longer rate limit and is not stored. -/
def refusedTwice : State := refusedOnce.perform (refusedUntil "openai" 50 2 .usageWindow)

/-- Then a success clears the rate limit. -/
def hiddenWindow : State := refusedTwice.perform (succeeded "openai" 3 4)

theorem success_removes_usage_window :
    ¬∀ accounts clock history target,
      Execution (Step accounts) (emptyState clock) history target → target.Right accounts := by
  intro right
  have member : "openai" ∈ ["openai"] := List.mem_singleton.mpr rfl
  have second : Step ["openai"] refusedOnce (refusedUntil "openai" 50 2 .usageWindow)
      refusedTwice :=
    ⟨member, trivial, by norm_num [refusedOnce, refusedUntil, State.perform], le_refl _, rfl⟩
  have third : Step ["openai"] refusedTwice (succeeded "openai" 3 4) hiddenWindow :=
    ⟨member, trivial, by norm_num [refusedTwice, refusedUntil, succeeded, State.perform],
      le_refl _, rfl⟩
  have run := ((Execution.single step_refusedOnce).extend second).extend third
  have reads := right ["openai"] 0 _ _ run "openai" member 4 (le_refl _)
  have hidden : hiddenWindow.live "openai" 4 ≠ [] := by decide +kernel
  have unread : (read hiddenWindow.limits hiddenWindow.usage "openai" 4).1.isSome = false := by
    decide +kernel
  rw [reads.exactly.mpr hidden] at unread
  cases unread

end PiAdaptative.ProviderLimits
