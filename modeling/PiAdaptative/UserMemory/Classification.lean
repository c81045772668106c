import PiAdaptative.UserMemory.Transaction

/-!
# What a classification says about the stored files

A pending transaction is settled by what the stored files hold.  An assessment always has a result,
and a `complete` or `none` one determines the contents of every planned file.
-/

namespace PiAdaptative.UserMemory

variable {δ : Type}

/-- A sequence of two computations succeeds only where both do. -/
theorem bind_ok {ε α β : Type} {first : Except ε α} {next : α → Except ε β} {result : β}
    (found : (first >>= next) = .ok result) :
    ∃ value, first = .ok value ∧ next value = .ok result := by
  cases first with
  | error error => cases found
  | ok value => exact ⟨value, rfl, found⟩

/-- The stored files have the contents that a side of the plan gives them. -/
structure State.Holds (state : State δ) (record : TransactionRecord δ)
    (side : StoredFile → Option String) : Prop where
  recognized : state.user.recognized = true
  user : some state.user.content = side record.user
  files : ∀ file ∈ record.files, state.archive file.name = side file

/-- Every planned file was read, and it holds what the plan leaves in it. -/
structure State.ReadBack (state : State δ) (record : TransactionRecord δ) (faults : AssessFaults) :
    Prop where
  holds : state.Holds record (·.after)
  read : ∀ index ≤ record.files.length, faults.getD index none = none

section Classification

open UserMemoryTransaction

variable (host : Host δ) {record : TransactionRecord δ}

variable {entry : (String × StoredFile) × MemoryMutationEvidence}

/-- What the evidence about one file contributes. -/
theorem summarizeFile_spec {summary next : Summary}
    (found : summarizeFile record summary entry = .ok next) :
    (next.allAfter = true → summary.allAfter = true ∧
      (entry.2.state = .after ∨
        (entry.2.state = .before ∧ entry.1.2.before = entry.1.2.after))) ∧
    (next.allBefore = true → summary.allBefore = true ∧ entry.2.state = .before) := by
  obtain ⟨⟨path, file⟩, item⟩ := entry
  simp only [summarizeFile] at found
  split at found
  · cases found
  split at found
  · cases found
    simp
  split at found
  next unchanged =>
    split at found
    · cases found
    next before =>
      cases found
      exact ⟨fun all => ⟨all, .inr ⟨not_not.mp before, unchanged⟩⟩,
        fun all => ⟨all, not_not.mp before⟩⟩
  split at found
  next after =>
    split at found
    · cases found
    · cases found
      exact ⟨fun all => ⟨all, .inl after⟩, nofun⟩
  split at found
  · cases found
  next unknown _ after _ =>
    cases found
    refine ⟨nofun, fun all => ⟨all, ?_⟩⟩
    cases state : item.state with
    | before => rfl
    | after => exact absurd state after
    | unknown => exact absurd state unknown

theorem foldlM_summarizeFile {entries : List ((String × StoredFile) × MemoryMutationEvidence)}
    {summary last : Summary}
    (found : entries.foldlM (summarizeFile record) summary = .ok last) :
    (last.allAfter = true → ∀ entry ∈ entries, entry.2.state = .after ∨
      (entry.2.state = .before ∧ entry.1.2.before = entry.1.2.after)) ∧
    (last.allBefore = true → ∀ entry ∈ entries, entry.2.state = .before) ∧
    (last.allAfter = true → summary.allAfter = true) ∧
    (last.allBefore = true → summary.allBefore = true) := by
  induction entries generalizing summary with
  | nil =>
      cases found
      simp
  | cons entry entries ih =>
      rw [List.foldlM_cons] at found
      cases first : summarizeFile record summary entry with
      | error text =>
          rw [first] at found
          cases found
      | ok next =>
          rw [first] at found
          obtain ⟨after, before, afters, befores⟩ := ih found
          obtain ⟨firstAfter, firstBefore⟩ := summarizeFile_spec first
          refine ⟨fun all => ?_, fun all => ?_, fun all => ?_, fun all => ?_⟩
          · exact List.forall_mem_cons.mpr ⟨(firstAfter (afters all)).2, after all⟩
          · exact List.forall_mem_cons.mpr ⟨(firstBefore (befores all)).2, before all⟩
          · exact (firstAfter (afters all)).1
          · exact (firstBefore (befores all)).1

/-- What a classification says about the evidence. -/
theorem summarize_spec {evidence : List MemoryMutationEvidence} {state : ReceiptState}
    {storageChanged : Bool} (found : summarize host record evidence = .ok (state, storageChanged)) :
    (state = .complete → ∀ entry ∈ (record.planned host).zip evidence, entry.2.state = .after ∨
      (entry.2.state = .before ∧ entry.1.2.before = entry.1.2.after)) ∧
    (state = .none → ∀ entry ∈ (record.planned host).zip evidence, entry.2.state = .before) := by
  simp only [summarize] at found
  split at found
  · cases found
  · cases folded : ((record.planned host).zip evidence).foldlM (summarizeFile record) {
        allAfter := true
        allBefore := true
        unknown := false
        storageChanged := record.completed ≠ [] } with
    | error text =>
        rw [folded] at found
        cases found
    | ok last =>
        rw [folded] at found
        obtain ⟨after, before, -, -⟩ := foldlM_summarizeFile folded
        cases found
        constructor
        · intro complete
          refine after ?_
          by_contra missing
          revert complete
          split
          · simp
          · split <;> simp
        · intro none
          refine before ?_
          by_contra missing
          revert none
          split
          · simp
          · split
            · simp
            · simp [missing]

theorem makeReceipt_spec {evidence : List MemoryMutationEvidence} {error : Option String}
    {receipt : Receipt} (made : makeReceipt host record evidence error = .ok receipt) :
    ∃ storageChanged, summarize host record evidence = .ok (receipt.state, storageChanged) := by
  simp only [makeReceipt] at made
  cases found : summarize host record evidence with
  | error text =>
      rw [found] at made
      cases made
  | ok summary =>
      rw [found] at made
      cases made
      exact ⟨summary.2, rfl⟩

theorem evidenceOf_spec (path : String) (file : StoredFile) (content : Option (Option String)) :
    ((evidenceOf record path file content).state = .after → content = some file.after) ∧
    ((evidenceOf record path file content).state = .before → content = some file.before) := by
  cases content with
  | none => simp [evidenceOf]
  | some content =>
      simp only [evidenceOf]
      split
      next same => exact ⟨nofun, fun _ => congrArg some same.2⟩
      split
      next after => exact ⟨fun _ => congrArg some after.1, nofun⟩
      split
      next before => exact ⟨nofun, fun _ => congrArg some before.1⟩
      · exact ⟨nofun, nofun⟩

def evidence (state : State δ) (record : TransactionRecord δ) (faults : AssessFaults) :
    List MemoryMutationEvidence :=
  (record.planned host).zipIdx.map fun ((path, file), index) =>
    evidenceOf record path file
      (contentOf state file (faults.getD index none) (index == record.files.length))

/-- What is read of every planned file, from what is read of each entry. -/
theorem holds_of_evidence {state : State δ} (faults : AssessFaults)
    (side : StoredFile → Option String)
    (each : ∀ entry ∈ (record.planned host).zip (evidence host state record faults),
      ∀ content, entry.2 = evidenceOf record entry.1.1 entry.1.2 content →
        content = some (side entry.1.2)) :
    state.Holds record side ∧ ∀ index ≤ record.files.length, faults.getD index none = none := by
  have found : ∀ index (inside : index < (record.planned host).length),
      contentOf state (record.planned host)[index].2 (faults.getD index none)
        (index == record.files.length) = some (side (record.planned host)[index].2) := by
    intro index inside
    have evident : index < (evidence host state record faults).length := by
      simpa [evidence] using inside
    refine each ((record.planned host)[index], (evidence host state record faults)[index]) ?_ _ ?_
    · refine List.mem_iff_getElem.mpr ⟨index, by simpa [evidence] using inside, ?_⟩
      rw [List.getElem_zip]
    · simp [evidence]
  have length : (record.planned host).length = record.files.length + 1 := by
    simp [TransactionRecord.planned]
  have read : ∀ index ≤ record.files.length, faults.getD index none = none := by
    intro index inside
    have content := found index (by omega)
    cases error : faults.getD index none with
    | none => rfl
    | some text =>
        rw [error] at content
        simp [contentOf] at content
  refine ⟨?_, read⟩
  have user := found record.files.length (by omega)
  rw [read _ (Nat.le_refl _)] at user
  have recognized : state.user.recognized = true := by
    by_contra unrecognized
    simp [contentOf, TransactionRecord.planned, unrecognized] at user
  refine ⟨recognized, ?_, fun file member => ?_⟩
  · simpa [contentOf, TransactionRecord.planned, recognized] using user
  · obtain ⟨index, inside, rfl⟩ := List.mem_iff_getElem.mp member
    have content := found index (by omega)
    rw [read index (by omega)] at content
    have other : (index == record.files.length) = false := by
      simp only [beq_eq_false_iff_ne]
      omega
    simpa [contentOf, TransactionRecord.planned, other, List.getElem_append_left, inside]
      using content

/-- What an assessment says about the stored files. -/
theorem assess_spec {state : State δ} {error : Option String} {faults : AssessFaults}
    {receipt : Receipt} (made : assess host state record error faults = .ok receipt) :
    (receipt.state = .complete → state.ReadBack record faults) ∧
    (receipt.state = .none → state.Holds record (·.before)) := by
  obtain ⟨storageChanged, found⟩ := makeReceipt_spec host made
  obtain ⟨complete, none⟩ := summarize_spec host found
  constructor
  · intro all
    have read := holds_of_evidence host faults (fun file => file.after)
        fun entry member content same => by
      rcases complete all entry member with after | ⟨before, unchanged⟩
      · exact (evidenceOf_spec _ _ _).1 (same ▸ after)
      · rw [← unchanged]
        exact (evidenceOf_spec _ _ _).2 (same ▸ before)
    exact ⟨read.1, read.2⟩
  · intro all
    refine (holds_of_evidence host faults (fun file => file.before)
      fun entry member content same => ?_).1
    exact (evidenceOf_spec _ _ _).2 (same ▸ none all entry member)

/-- Evidence that a classification accepts. -/
structure Coherent (record : TransactionRecord δ)
    (entry : (String × StoredFile) × MemoryMutationEvidence) : Prop where
  path : entry.2.path = entry.1.1
  attempted : entry.2.attempted = record.attempted.contains entry.1.2.name
  unchanged : entry.1.2.before = entry.1.2.after → entry.2.state ≠ .after
  after : entry.2.state = .after → entry.2.attempted = true
  before : entry.1.2.before ≠ entry.1.2.after → entry.2.state = .before →
    record.completed.contains entry.1.2.name = false

theorem Coherent.accepted (coherent : Coherent record entry) (summary : Summary) :
    ∃ next, summarizeFile record summary entry = .ok next := by
  obtain ⟨⟨path, file⟩, item⟩ := entry
  obtain ⟨samePath, sameAttempt, unchanged, after, before⟩ := coherent
  simp only at samePath sameAttempt unchanged after before
  simp only [summarizeFile]
  rw [if_neg (by simp [samePath, sameAttempt])]
  cases state : item.state with
  | unknown => simp
  | after =>
      have attempted := after state
      by_cases same : file.before = file.after
      · exact absurd state (unchanged same)
      · simp [same, attempted]
  | before =>
      by_cases same : file.before = file.after
      · simp [same]
      · have incomplete := before same state
        rw [if_neg (by simp), if_neg same, if_neg (by simp),
          if_neg (by rw [incomplete]; simp)]
        exact ⟨_, rfl⟩

theorem summarize_total {evidence : List MemoryMutationEvidence}
    (length : evidence.length = (record.planned host).length)
    (coherent : ∀ entry ∈ (record.planned host).zip evidence, Coherent record entry) :
    ∃ found, summarize host record evidence = .ok found := by
  have folds : ∀ (entries : List ((String × StoredFile) × MemoryMutationEvidence))
      (summary : Summary), (∀ entry ∈ entries, Coherent record entry) →
      ∃ last, entries.foldlM (summarizeFile record) summary = .ok last := by
    intro entries
    induction entries with
    | nil => exact fun summary _ => ⟨summary, rfl⟩
    | cons entry entries ih =>
        intro summary coherent
        obtain ⟨first, rest⟩ := List.forall_mem_cons.mp coherent
        obtain ⟨next, found⟩ := first.accepted summary
        obtain ⟨last, folded⟩ := ih next rest
        refine ⟨last, ?_⟩
        rw [List.foldlM_cons, found]
        exact folded
  obtain ⟨last, folded⟩ := folds _ {
    allAfter := true
    allBefore := true
    unknown := false
    storageChanged := record.completed ≠ [] } coherent
  simp only [summarize, length, ne_eq, not_true_eq_false, if_false]
  rw [folded]
  exact ⟨_, rfl⟩

theorem makeReceipt_total {evidence : List MemoryMutationEvidence}
    (length : evidence.length = (record.planned host).length)
    (coherent : ∀ entry ∈ (record.planned host).zip evidence, Coherent record entry)
    (error : Option String) : ∃ receipt, makeReceipt host record evidence error = .ok receipt := by
  obtain ⟨found, summarized⟩ := summarize_total host length coherent
  simp only [makeReceipt, summarized]
  exact ⟨_, rfl⟩

theorem coherent_evidenceOf (path : String) (file : StoredFile)
    (content : Option (Option String)) :
    Coherent record ((path, file), evidenceOf record path file content) := by
  refine ⟨rfl, rfl, ?_, ?_, ?_⟩
  all_goals
    cases content with
    | none => simp [evidenceOf]
    | some content =>
        simp only [evidenceOf]
        split
        · simp_all
        split
        · simp_all
        split
        · simp_all
        · simp_all

/-- An assessment always has a result. -/
theorem assess_total (state : State δ) (record : TransactionRecord δ) (error : Option String)
    (faults : AssessFaults) : ∃ receipt, assess host state record error faults = .ok receipt := by
  refine makeReceipt_total host (by simp) ?_ error
  intro entry member
  obtain ⟨index, inside, rfl⟩ := List.mem_iff_getElem.mp member
  rw [List.getElem_zip, List.getElem_map, List.getElem_zipIdx]
  exact coherent_evidenceOf _ _ _

/-- A plan that changes nothing. -/
def TransactionRecord.Unchanged (record : TransactionRecord δ) : Prop :=
  record.user.before = record.user.after ∧ ∀ file ∈ record.files, file.before = file.after

theorem TransactionRecord.unchanged_iff :
    record.Unchanged ↔ ∀ entry ∈ record.planned host, entry.2.before = entry.2.after := by
  simp only [Unchanged, planned, List.mem_append, List.mem_map, List.mem_singleton]
  constructor
  · rintro ⟨user, files⟩ entry (⟨file, member, rfl⟩ | rfl)
    · exact files file member
    · exact user
  · exact fun all => ⟨all _ (.inr rfl), fun file member => all _ (.inl ⟨file, member, rfl⟩)⟩

/-- The evidence about a file of an operation that did not start. -/
def untouched (path : String) : MemoryMutationEvidence where
  path
  state := .before
  attempted := false

/-- The receipt of an operation that did not start says that it is complete exactly where nothing
was to be done. -/
theorem unstartedReceipt_spec (attempted : record.attempted = [])
    (completed : record.completed = []) :
    ∃ receipt, unstartedReceipt host record = .ok receipt ∧
      (receipt.state = .complete ↔ record.Unchanged) := by
  have member : ∀ entry ∈ (record.planned host).zip
      ((record.planned host).map fun entry => untouched entry.1),
      entry.1 ∈ record.planned host ∧ entry.2 = untouched entry.1.1 := by
    intro entry member
    obtain ⟨index, inside, rfl⟩ := List.mem_iff_getElem.mp member
    rw [List.getElem_zip, List.getElem_map]
    exact ⟨List.getElem_mem _, rfl⟩
  have coherent : ∀ entry ∈ (record.planned host).zip
      ((record.planned host).map fun entry => untouched entry.1), Coherent record entry := by
    intro entry found
    obtain ⟨-, item⟩ := member entry found
    exact ⟨by rw [item]; rfl, by simp [item, untouched, attempted], by simp [item, untouched],
      by simp [item, untouched], by simp [completed]⟩
  obtain ⟨receipt, made⟩ := makeReceipt_total host (by simp) coherent none
  refine ⟨receipt, made, ?_⟩
  obtain ⟨storageChanged, found⟩ := makeReceipt_spec host made
  rw [TransactionRecord.unchanged_iff host]
  constructor
  · intro complete entry planned
    obtain ⟨index, inside, rfl⟩ := List.mem_iff_getElem.mp planned
    have zipped := (summarize_spec host found).1 complete
      ((record.planned host)[index], untouched (record.planned host)[index].1)
      (List.mem_iff_getElem.mpr ⟨index, by simpa using inside, by simp⟩)
    simpa [untouched] using zipped
  · intro unchanged
    have keeps : ∀ (entries : List ((String × StoredFile) × MemoryMutationEvidence))
        (summary : Summary), (∀ entry ∈ entries, Coherent record entry ∧
          entry.2.state = .before ∧ entry.1.2.before = entry.1.2.after) →
        entries.foldlM (summarizeFile record) summary = .ok summary := by
      intro entries summary all
      induction entries with
      | nil => rfl
      | cons entry entries ih =>
          obtain ⟨⟨coherent, before, same⟩, rest⟩ := List.forall_mem_cons.mp all
          have first : summarizeFile record summary entry = .ok summary := by
            simp [summarizeFile, coherent.path, coherent.attempted, before, same]
          rw [List.foldlM_cons, first]
          exact ih rest
    have folded := keeps _ {
      allAfter := true
      allBefore := true
      unknown := false
      storageChanged := record.completed ≠ [] } fun entry zipped =>
        ⟨coherent entry zipped, by rw [(member entry zipped).2]; rfl,
          unchanged entry.1 (member entry zipped).1⟩
    simp only [summarize, List.length_map, ne_eq, not_true_eq_false, if_false] at found
    rw [folded] at found
    have state := congrArg Prod.fst (Except.ok.inj found)
    exact state.symm

end Classification

end PiAdaptative.UserMemory
