import PiAdaptative.Verification.DisplayTexts
import Mathlib.Data.List.Perm.Subperm

/-!
# The snapshot codec

A snapshot is created from the active ids and the two side tables exactly when both tables name
active ids only, and a created snapshot is read back as it was written.
-/

namespace PiAdaptative.Verification

@[simp]
theorem guard_eq_some {holds : Prop} [Decidable holds] {value : Unit} :
    (guard holds : Option Unit) = some value ↔ holds := by
  by_cases held : holds <;> simp [guard, held, failure]

variable {id : String}

theorem readId_eq_some {isId : String → Bool} {value : Option Json}
    (read : readId isId value = some id) : isId id = true := by
  unfold readId at read
  split at read
  · split at read
    · cases read
      assumption
    · cases read
  · cases read

variable (texts : List String)

theorem sortedTexts_perm : (sortedTexts texts).Perm texts :=
  List.perm_insertionSort _ texts

theorem sortedTexts_idem : sortedTexts (sortedTexts texts) = sortedTexts texts :=
  (List.pairwise_insertionSort (· ≤ ·) texts).insertionSort_eq

/-- Lists with the same elements sort alike. -/
theorem sortedTexts_congr {left right : List String} (same : left.Perm right) :
    sortedTexts left = sortedTexts right :=
  (((sortedTexts_perm left).trans same).trans (sortedTexts_perm right).symm).eq_of_pairwise'
    (List.pairwise_insertionSort _ _) (List.pairwise_insertionSort _ _)

variable {activeIds sorted : List String}

theorem boundedCanonicalIds_eq_some :
    boundedCanonicalIds activeIds = some sorted ↔
      sorted = sortedTexts activeIds ∧
        activeIds.length ≤ MAX_ACTIVE_VERIFICATION_OBLIGATIONS ∧
        (∀ id ∈ activeIds, isSnapshotVerificationId id = true) ∧ activeIds.Nodup := by
  have members : (sortedTexts activeIds).all isSnapshotVerificationId = true ↔
      ∀ id ∈ activeIds, isSnapshotVerificationId id = true := by
    rw [List.all_eq_true]
    exact forall_congr' fun id => by rw [(sortedTexts_perm activeIds).mem_iff]
  unfold boundedCanonicalIds
  dsimp only
  split
  next fine =>
    rw [members, (sortedTexts_perm activeIds).nodup_iff] at fine
    rw [Option.some.injEq, eq_comm]
    exact ⟨fun same => ⟨same, fine⟩, fun both => both.1⟩
  next bad =>
    rw [members, (sortedTexts_perm activeIds).nodup_iff] at bad
    exact ⟨fun impossible => (nomatch impossible), fun both => absurd both.2 bad⟩

theorem boundedCanonicalIds_idem (canonical : boundedCanonicalIds activeIds = some sorted) :
    boundedCanonicalIds sorted = some sorted := by
  obtain ⟨rfl, few, valid, distinct⟩ := boundedCanonicalIds_eq_some.mp canonical
  have same := sortedTexts_perm activeIds
  refine boundedCanonicalIds_eq_some.mpr ⟨(sortedTexts_idem activeIds).symm, ?_, ?_, ?_⟩
  · rwa [same.length_eq]
  · exact fun id member => valid id (same.mem_iff.mp member)
  · exact same.nodup_iff.mpr distinct

@[simp]
theorem readTextArray_strings : readTextArray (some (.strings texts)) = some texts := by
  unfold Json.strings readTextArray
  induction texts with
  | nil => rfl
  | cons text texts ih => simp [readTexts, ih]

section Lists

variable {α : Type} {isId : String → Bool}
  {readEntry : Json → String → Option (Option (String × α))} {toValue : String × α → Json}
  {activeIds : List String} {entries : List (String × α)}

instance total_id : Std.Total fun left right : String × α => left.1 ≤ right.1 :=
  ⟨fun left right => le_total left.1 right.1⟩

instance isTrans_id : IsTrans (String × α) fun left right => left.1 ≤ right.1 :=
  ⟨fun _ _ _ first second => le_trans first second⟩

def sortedById (entries : List (String × α)) : List (String × α) :=
  entries.insertionSort fun left right => left.1 ≤ right.1

theorem sortedById_perm (entries : List (String × α)) : (sortedById entries).Perm entries :=
  List.perm_insertionSort _ entries

theorem sortedById_idem (entries : List (String × α)) :
    sortedById (sortedById entries) = sortedById entries :=
  (List.pairwise_insertionSort (fun left right : String × α => left.1 ≤ right.1)
    entries).insertionSort_eq

/-- An entry that the reader of a list reads back from the value written for it. -/
structure Readable (isId : String → Bool)
    (readEntry : Json → String → Option (Option (String × α))) (toValue : String × α → Json)
    (entry : String × α) : Prop where
  object : plainObject (some (toValue entry)) = some (toValue entry)
  id : readId isId (ownDataValue (toValue entry) "id") = some entry.1
  value : readEntry (toValue entry) entry.1 = some (some entry)

theorem canonicalEntries_map (seen : List String)
    (readable : ∀ entry ∈ entries, Readable isId readEntry toValue entry)
    (active : ∀ entry ∈ entries, entry.1 ∈ activeIds ∧ entry.1 ∉ seen)
    (distinct : (entries.map Prod.fst).Nodup) :
    canonicalEntries activeIds isId readEntry seen (entries.map toValue) = some entries := by
  induction entries generalizing seen with
  | nil => rfl
  | cons entry rest ih =>
      obtain ⟨fresh, distinctRest⟩ := List.nodup_cons.mp distinct
      have first := readable entry List.mem_cons_self
      have later := ih (entry.1 :: seen)
        (fun other member => readable other (List.mem_cons_of_mem _ member))
        (fun other member => by
          refine ⟨(active other (List.mem_cons_of_mem _ member)).1, ?_⟩
          intro bad
          rcases List.mem_cons.mp bad with same | before
          · exact fresh (same ▸ List.mem_map_of_mem member)
          · exact (active other (List.mem_cons_of_mem _ member)).2 before) distinctRest
      have here := active entry List.mem_cons_self
      simp [canonicalEntries, first.object, first.id, first.value, here, later]

/-- What a list reader accepts names active ids. -/
theorem mem_of_canonicalEntries {seen : List String} {found : List (String × α)}
    (readable : ∀ entry ∈ entries, readId isId (ownDataValue (toValue entry) "id") = some entry.1 ∧
      plainObject (some (toValue entry)) = some (toValue entry))
    (accepted : canonicalEntries activeIds isId readEntry seen (entries.map toValue) = some found) :
    ∀ entry ∈ entries, entry.1 ∈ activeIds := by
  induction entries generalizing seen found with
  | nil => exact fun _ member => nomatch member
  | cons entry rest ih =>
      obtain ⟨named, object⟩ := readable entry List.mem_cons_self
      simp only [List.map_cons, canonicalEntries, object, named, Option.bind_eq_bind,
        Option.bind_some, Option.bind_eq_some_iff, guard_eq_some] at accepted
      obtain ⟨-, ⟨active, -⟩, record, -, records, later, -⟩ := accepted
      intro other member
      rcases List.mem_cons.mp member with rfl | inside
      · exact active
      · exact ih (fun next found => readable next (List.mem_cons_of_mem _ found)) later other inside

/-- A list of readable entries of active ids is canonicalised by sorting it. -/
theorem canonicalSnapshotList_map
    (readable : ∀ entry ∈ entries, Readable isId readEntry toValue entry)
    (active : ∀ entry ∈ entries, entry.1 ∈ activeIds)
    (distinct : (entries.map Prod.fst).Nodup) :
    canonicalSnapshotList (some (.arr (entries.map toValue))) activeIds isId readEntry =
      some (sortedById entries) := by
  have few : entries.length ≤ activeIds.length := by
    have covered : entries.map Prod.fst ⊆ activeIds := by
      intro id member
      obtain ⟨entry, inside, rfl⟩ := List.mem_map.mp member
      exact active entry inside
    simpa using (List.subperm_of_subset distinct covered).length_le
  have read := canonicalEntries_map [] readable
    (fun entry member => ⟨active entry member, List.not_mem_nil⟩) distinct
  simp [canonicalSnapshotList, few, read, sortedById]

/-- The entries sorted by id are read back in their order. -/
theorem canonicalSnapshotList_sorted
    (readable : ∀ entry ∈ entries, Readable isId readEntry toValue entry)
    (active : ∀ entry ∈ entries, entry.1 ∈ activeIds)
    (distinct : (entries.map Prod.fst).Nodup) :
    canonicalSnapshotList (some (.arr ((sortedById entries).map toValue))) activeIds isId
      readEntry = some (sortedById entries) := by
  have same := sortedById_perm entries
  rw [canonicalSnapshotList_map (fun entry member => readable entry (same.mem_iff.mp member))
    (fun entry member => active entry (same.mem_iff.mp member))
    ((same.map Prod.fst).nodup_iff.mpr distinct), sortedById_idem]

section

variable (keepsId : ∀ candidate id entry, readEntry candidate id = some (some entry) → entry.1 = id)
include keepsId

/-- What a list reader gives: distinct active ids with what the entry reader made of them. -/
theorem of_canonicalEntries {seen : List String} {elements : List Json}
    (accepted : canonicalEntries activeIds isId readEntry seen elements = some entries) :
    (entries.map Prod.fst).Nodup ∧ ∀ entry ∈ entries, entry.1 ∉ seen ∧ entry.1 ∈ activeIds ∧
      isId entry.1 = true ∧ ∃ candidate, readEntry candidate entry.1 = some (some entry) := by
  induction elements generalizing seen entries with
  | nil =>
      cases accepted
      exact ⟨List.nodup_nil, fun _ member => nomatch member⟩
  | cons element rest ih =>
      simp only [canonicalEntries, Option.bind_eq_bind, Option.bind_eq_some_iff, guard_eq_some,
        Option.pure_def, Option.some.injEq] at accepted
      obtain ⟨candidate, -, id, named, -, ⟨active, fresh⟩, record, read, records, later, rfl⟩ :=
        accepted
      obtain ⟨distinct, others⟩ := ih later
      have valid : isId id = true := readId_eq_some named
      cases record with
      | none =>
          refine ⟨distinct, fun entry member => ?_⟩
          obtain ⟨unseen, rest⟩ := others entry member
          exact ⟨fun bad => unseen (List.mem_cons_of_mem _ bad), rest⟩
      | some first =>
          obtain rfl := keepsId candidate id first read
          refine ⟨?_, ?_⟩
          · refine List.nodup_cons.mpr ⟨?_, distinct⟩
            intro bad
            obtain ⟨entry, member, same⟩ := List.mem_map.mp bad
            exact (others entry member).1 (same ▸ List.mem_cons_self)
          · intro entry member
            rcases List.mem_cons.mp member with rfl | inside
            · exact ⟨fresh, active, valid, candidate, read⟩
            · obtain ⟨unseen, rest⟩ := others entry inside
              exact ⟨fun bad => unseen (List.mem_cons_of_mem _ bad), rest⟩

theorem of_canonicalSnapshotList {value : Option Json}
    (accepted : canonicalSnapshotList value activeIds isId readEntry = some entries) :
    (entries.map Prod.fst).Nodup ∧ ∀ entry ∈ entries, entry.1 ∈ activeIds ∧
      isId entry.1 = true ∧ ∃ candidate, readEntry candidate entry.1 = some (some entry) := by
  unfold canonicalSnapshotList at accepted
  split at accepted
  · cases accepted
    exact ⟨List.nodup_nil, fun _ member => nomatch member⟩
  · split at accepted
    · obtain ⟨found, read, rfl⟩ := Option.map_eq_some_iff.mp accepted
      obtain ⟨distinct, each⟩ := of_canonicalEntries keepsId read
      have same := sortedById_perm found
      refine ⟨(same.map Prod.fst).nodup_iff.mpr distinct, fun entry member => ?_⟩
      exact (each entry (same.mem_iff.mp member)).2
    · cases accepted
  · cases accepted

end

end Lists

/-- A description that shows something and shows it within the bounds. -/
structure Description.IsDisplayed (description : Description) : Prop where
  shows : description.command ≠ none ∨ description.cwd ≠ none
  command : ∀ text, description.command = some text →
    boundedDisplayText (some (.str text)) MAX_VERIFICATION_COMMAND_LENGTH = some text
  cwd : ∀ text, description.cwd = some text →
    boundedDisplayText (some (.str text)) MAX_VERIFICATION_CWD_LENGTH = some text

def readSetupFailure (candidate : Json) (id : String) : Option (Option (String × String)) :=
  (readId isVerificationId (ownDataValue candidate "repairGroup")).map fun group => some (id, group)

/-- The reader of a described obligation. -/
def readDescription (candidate : Json) (id : String) : Option (Option (String × Description)) :=
  let command := boundedDisplayText (ownDataValue candidate "command")
    MAX_VERIFICATION_COMMAND_LENGTH
  let cwd := boundedDisplayText (ownDataValue candidate "cwd") MAX_VERIFICATION_CWD_LENGTH
  if command = none ∧ cwd = none then some none else some (some (id, { command, cwd }))

theorem of_readSetupFailure {candidate : Json} {entry : String × String}
    (read : readSetupFailure candidate id = some (some entry)) :
    entry.1 = id ∧ isVerificationId entry.2 = true := by
  obtain ⟨group, named, same⟩ := Option.map_eq_some_iff.mp read
  cases same
  exact ⟨rfl, readId_eq_some named⟩

variable {entry : String × Description}

theorem of_readDescription {candidate : Json}
    (read : readDescription candidate id = some (some entry)) :
    entry.1 = id ∧ entry.2.IsDisplayed := by
  unfold readDescription at read
  dsimp only at read
  split at read
  · cases read
  next shows =>
    cases read
    refine ⟨rfl, ?_, ?_, ?_⟩
    · by_contra neither
      rw [not_or, not_not, not_not] at neither
      exact shows neither
    · exact fun text shown => boundedDisplayText_idem (by decide) shown
    · exact fun text shown => boundedDisplayText_idem (by decide) shown

theorem canonicalDescriptions_eq (value : Option Json) (activeIds : List String) :
    canonicalDescriptions value activeIds =
      canonicalSnapshotList value activeIds isSnapshotVerificationId readDescription := rfl

theorem readable_setupFailureValue {entry : String × String}
    (named : isVerificationId entry.1 = true) (grouped : isVerificationId entry.2 = true) :
    Readable isVerificationId readSetupFailure setupFailureValue entry where
  object := rfl
  id := by simp [setupFailureValue, ownDataValue, Json.field, readId, named]
  value := by
    simp [setupFailureValue, ownDataValue, Json.field, readSetupFailure, readId, grouped,
      List.lookup_cons]

theorem ownDataValue_descriptionValue_command (entry : String × Description) :
    ownDataValue (descriptionValue entry) "command" = entry.2.command.map .str := by
  obtain ⟨id, command, cwd⟩ := entry
  cases command <;> cases cwd <;> rfl

theorem ownDataValue_descriptionValue_cwd (entry : String × Description) :
    ownDataValue (descriptionValue entry) "cwd" = entry.2.cwd.map .str := by
  obtain ⟨id, command, cwd⟩ := entry
  cases command <;> cases cwd <;> rfl

theorem boundedDisplayText_map_str {text : Option String} {limit : Nat}
    (displayed : ∀ value, text = some value →
      boundedDisplayText (some (.str value)) limit = some value) :
    boundedDisplayText (text.map .str) limit = text := by
  cases text with
  | none => rfl
  | some value => exact displayed value rfl

theorem readable_descriptionValue (named : isSnapshotVerificationId entry.1 = true)
    (displayed : entry.2.IsDisplayed) :
    Readable isSnapshotVerificationId readDescription descriptionValue entry where
  object := rfl
  id := by
    have found : ownDataValue (descriptionValue entry) "id" = some (.str entry.1) := rfl
    rw [found]
    simp [readId, named]
  value := by
    unfold readDescription
    rw [ownDataValue_descriptionValue_command, ownDataValue_descriptionValue_cwd]
    rw [boundedDisplayText_map_str displayed.command, boundedDisplayText_map_str displayed.cwd,
      if_neg]
    rintro ⟨noCommand, noCwd⟩
    rcases displayed.shows with shown | shown
    · exact shown noCommand
    · exact shown noCwd

/-- A snapshot in the form the codec writes. -/
structure ObligationSnapshot.IsCanonical (snapshot : ObligationSnapshot) : Prop where
  ids : boundedCanonicalIds snapshot.activeIds = some snapshot.activeIds
  setup : canonicalSetupFailures (some (.arr (snapshot.setupFailures.map setupFailureValue)))
    snapshot.activeIds = some snapshot.setupFailures
  described : canonicalDescriptions (some (.arr (snapshot.descriptions.map descriptionValue)))
    snapshot.activeIds = some snapshot.descriptions

theorem lookup_optionalList (name : String) (values : List Json) :
    (optionalList name values).lookup name = if values = [] then none else some (.arr values) := by
  unfold optionalList
  split <;> simp

theorem lookup_optionalList_of_ne (name : String) {other : String} (values : List Json)
    (distinct : other ≠ name) : (optionalList name values).lookup other = none := by
  unfold optionalList
  split
  · rfl
  · rw [List.lookup_cons, beq_eq_false_iff_ne.mpr distinct]
    rfl

theorem canonicalSnapshotList_optional {α : Type} {values : List Json} {activeIds : List String}
    {isId : String → Bool} {readEntry : Json → String → Option (Option (String × α))}
    {found : List (String × α)}
    (read : canonicalSnapshotList (some (.arr values)) activeIds isId readEntry = some found) :
    canonicalSnapshotList (if values = [] then none else some (.arr values)) activeIds isId
      readEntry = some found := by
  split
  next empty =>
    subst empty
    simpa [canonicalSnapshotList, canonicalEntries] using read
  next => exact read

theorem listsInOrder_setupFailures (entries : List (String × String)) :
    listsInOrder (some (.arr (entries.map setupFailureValue))) entries = true := by
  unfold listsInOrder
  rw [List.all_eq_true]
  rintro ⟨entry, index⟩ member
  have inside := List.mem_zipIdx_iff_getElem?.mp member
  have found : (entries.map setupFailureValue)[index]? = some (setupFailureValue entry) := by
    rw [List.getElem?_map, inside]
    rfl
  rw [found]
  simp [isText, setupFailureValue, ownDataValue, Json.field]

/-- A canonical snapshot is read back as it was written. -/
theorem readVerificationObligationSnapshot_snapshotDetails {snapshot : ObligationSnapshot}
    (canonical : snapshot.IsCanonical) :
    readVerificationObligationSnapshot (some (snapshotDetails snapshot)) = some snapshot := by
  obtain ⟨activeIds, setupFailures, descriptions⟩ := snapshot
  obtain ⟨ids, setup, described⟩ := canonical
  set candidate : Json := .obj
    ([("version", .num 1), ("activeIds", .strings activeIds)] ++
      optionalList "setupFailures" (setupFailures.map setupFailureValue) ++
      optionalList "descriptions" (descriptions.map descriptionValue)) with candidateEq
  have version : isVersionOne (ownDataValue candidate "version") = true := rfl
  have active : ownDataValue candidate "activeIds" = some (.strings activeIds) := rfl
  have failures : ownDataValue candidate "setupFailures" =
      if setupFailures.map setupFailureValue = [] then none
      else some (.arr (setupFailures.map setupFailureValue)) := by
    rw [← lookup_optionalList "setupFailures"]
    simp [candidateEq, ownDataValue, Json.field, List.lookup_append,
      lookup_optionalList_of_ne "descriptions", List.lookup_cons]
  have shown : ownDataValue candidate "descriptions" =
      if descriptions.map descriptionValue = [] then none
      else some (.arr (descriptions.map descriptionValue)) := by
    rw [← lookup_optionalList "descriptions"]
    simp [candidateEq, ownDataValue, Json.field, List.lookup_append,
      lookup_optionalList_of_ne "setupFailures", List.lookup_cons]
  have inOrder : listsInOrder (ownDataValue candidate "setupFailures") setupFailures = true := by
    rw [failures]
    split
    · rfl
    · exact listsInOrder_setupFailures setupFailures
  have readSetup : canonicalSetupFailures (ownDataValue candidate "setupFailures") activeIds =
      some setupFailures := by
    rw [failures]
    exact canonicalSnapshotList_optional setup
  have readShown : canonicalDescriptions (ownDataValue candidate "descriptions") activeIds =
      some descriptions := by
    rw [shown]
    exact canonicalSnapshotList_optional described
  have object : plainObject (ownDataValue (snapshotDetails
      { activeIds, setupFailures, descriptions }) "piVerificationObligations") =
      some candidate := rfl
  have outer : plainObject (some (snapshotDetails { activeIds, setupFailures, descriptions })) =
      some (snapshotDetails { activeIds, setupFailures, descriptions }) := rfl
  unfold readVerificationObligationSnapshot
  simp [outer, object, version, active, ids, inOrder, readSetup, readShown, guard]

end PiAdaptative.Verification
