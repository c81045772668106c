import PiAdaptative.WriteReservations.Store

/-!
# Readable stores

A written store is read back with the same reservations exactly when its root and every field of
its reservations already have the form that the reader leaves unchanged.
-/

namespace PiAdaptative.WriteReservations

/-- The fields that the reader of a reservation leaves as they are. -/
structure ReadableReservation (repositoryRoot : String) (record : PersistedReservation) :
    Prop where
  reservationId : IsBoundedText MAX_IDENTIFIER_CHARS record.reservationId
  parentSessionId : IsBoundedText MAX_IDENTIFIER_CHARS record.parentSessionId
  ownerId : IsBoundedText MAX_IDENTIFIER_CHARS record.ownerId
  owner : parseLocalWorkerProcessOwnerId record.ownerId ≠ none
  taskId : IsBoundedText MAX_IDENTIFIER_CHARS record.taskId
  attemptId : IsBoundedText MAX_IDENTIFIER_CHARS record.attemptId
  fencingToken : isSafeInteger record.fencingToken = true ∧ ¬record.fencingToken < 1
  root : record.repositoryRoot = repositoryRoot
  repositoryRoot : IsBoundedText MAX_PATH_CHARS record.repositoryRoot
  executionRoot : IsBoundedText MAX_PATH_CHARS record.executionRoot
  executionIdentity : IsBoundedText MAX_PATH_CHARS record.executionIdentity
  isolatedWorktreeId : ∀ id, record.isolatedWorktreeId = some id →
    IsBoundedText MAX_IDENTIFIER_CHARS id
  scopeCount : record.writeScopes.length ≠ 0 ∧ record.writeScopes.length ≤ MAX_SCOPES
  writeScopes : ∀ scope ∈ record.writeScopes, IsBoundedText MAX_PATH_CHARS scope
  createdAt : IsBoundedText MAX_IDENTIFIER_CHARS record.createdAt

/-- A store of `size` bytes that the reader leaves as it is. -/
structure ReadableStore (size : Nat) (store : PersistedReservationStore) : Prop where
  size : size ≤ MAX_FILE_BYTES
  repositoryRoot : IsBoundedText MAX_PATH_CHARS store.repositoryRoot
  count : store.reservations.length ≤ MAX_RESERVATIONS
  reservations : ∀ record ∈ store.reservations, ReadableReservation store.repositoryRoot record
  distinct : (store.reservations.map PersistedReservation.reservationId).Nodup

theorem stringField_eq_ok {value : Option Json} {label text : String} {maximum : Nat} :
    stringField value label maximum = .ok text ↔
      ∃ raw, value = some (.str raw) ∧ trim raw = text ∧ IsBoundedText maximum text := by
  unfold stringField
  split
  next raw => simp [requireBoundedTrimmedText_eq_ok]
  next other =>
    constructor
    · intro impossible
      cases impossible
    · rintro ⟨raw, rfl, -⟩
      exact absurd rfl (other raw)

@[simp]
theorem stringField_str {label text : String} {maximum : Nat} :
    stringField (some (.str text)) label maximum = .ok text ↔ IsBoundedText maximum text := by
  rw [stringField_eq_ok]
  constructor
  · rintro ⟨_, _, _, bounded⟩
    exact bounded
  · intro bounded
    exact ⟨text, rfl, bounded.trimmed, bounded⟩

theorem localOwnerId_eq_ok {value : Option Json} {text : String} :
    localOwnerId value = .ok text ↔
      stringField value "owner id" MAX_IDENTIFIER_CHARS = .ok text ∧
        parseLocalWorkerProcessOwnerId text ≠ none := by
  simp only [localOwnerId, bind_eq_ok, throwPlainIf_eq_ok, exists_unit, pure_eq_ok]
  constructor
  · rintro ⟨_, read, owned, rfl⟩
    exact ⟨read, owned⟩
  · rintro ⟨read, owned⟩
    exact ⟨text, read, owned, rfl⟩

theorem positiveFencingToken_eq_ok {value token : Rat} :
    positiveFencingToken value = .ok token ↔
      token = value ∧ isSafeInteger value = true ∧ ¬value < 1 := by
  simp only [positiveFencingToken, bind_eq_ok, throwPlainIf_eq_ok, exists_unit, pure_eq_ok,
    not_or, Bool.not_eq_false]
  constructor
  · rintro ⟨valid, rfl⟩
    exact ⟨rfl, valid⟩
  · rintro ⟨rfl, valid⟩
    exact ⟨valid, rfl⟩

theorem scopesField_strings {scopes : List String} :
    scopesField (some (.strings scopes)) = .ok scopes ↔
      (scopes.length ≠ 0 ∧ scopes.length ≤ MAX_SCOPES) ∧
        ∀ scope ∈ scopes, IsBoundedText MAX_PATH_CHARS scope := by
  simp only [Json.strings, scopesField, bind_eq_ok, throwPlainIf_eq_ok, exists_unit,
    List.length_map, not_or, not_lt, mapOutcome_map, stringField_str, ne_eq]

theorem isolatedWorktreeId_read {id : Option String} :
    (∃ value, optionalOutcome (id.map Json.str) (fun present =>
        stringField present "isolated worktree id" MAX_IDENTIFIER_CHARS) = .ok value ∧
      truthy value = id) ↔
      ∀ present, id = some present → IsBoundedText MAX_IDENTIFIER_CHARS present := by
  cases id with
  | none => simp [optionalOutcome]
  | some present =>
      simp only [Option.map_some, optionalOutcome, bind_eq_ok, pure_eq_ok, Option.some.injEq,
        forall_eq']
      constructor
      · rintro ⟨_, ⟨text, read, rfl⟩, same⟩
        obtain ⟨same, -⟩ := truthy_eq_some.mp same
        cases same
        exact stringField_str.mp read
      · intro bounded
        exact ⟨_, ⟨present, stringField_str.mpr bounded, rfl⟩,
          truthy_eq_some.mpr ⟨rfl, bounded.nonempty⟩⟩

variable {repositoryRoot : String}

/-- A written reservation is read back exactly when it is readable. -/
theorem parseReservation_toJson {record : PersistedReservation} :
    parseReservation repositoryRoot record.toJson = .ok record ↔
      ReadableReservation repositoryRoot record := by
  simp only [parseReservation, PersistedReservation.toJson, Json.field, List.lookup_append,
    List.lookup_cons, lookup_optionalField, List.lookup_nil, String.reduceBEq, String.reduceEq,
    if_true, if_false, Option.or_none, Option.none_or, Option.or_some, numberField,
    bind_eq_ok, throwPlainIf_eq_ok, exists_unit, pure_eq_ok, not_not]
  constructor
  · rintro ⟨_, number, root, rootRead, rootSame, scopes, scopesRead, isolated, isolatedRead,
      id, idRead, session, sessionRead, owner, ownerRead, task, taskRead, attempt, attemptRead,
      token, tokenRead, execution, executionRead, identity, identityRead, created, createdRead,
      rfl⟩
    cases number
    obtain ⟨ownerBounded, owned⟩ := localOwnerId_eq_ok.mp ownerRead
    obtain ⟨-, fence⟩ := positiveFencingToken_eq_ok.mp tokenRead
    obtain ⟨scopeCount, scopesBounded⟩ := scopesField_strings.mp scopesRead
    exact {
      reservationId := stringField_str.mp idRead
      parentSessionId := stringField_str.mp sessionRead
      ownerId := stringField_str.mp ownerBounded
      owner := owned
      taskId := stringField_str.mp taskRead
      attemptId := stringField_str.mp attemptRead
      fencingToken := fence
      root := rootSame
      repositoryRoot := stringField_str.mp rootRead
      executionRoot := stringField_str.mp executionRead
      executionIdentity := stringField_str.mp identityRead
      isolatedWorktreeId := isolatedWorktreeId_read.mp ⟨isolated, isolatedRead, rfl⟩
      scopeCount := scopeCount
      writeScopes := scopesBounded
      createdAt := stringField_str.mp createdRead }
  · intro readable
    obtain ⟨isolated, isolatedRead, same⟩ :=
      isolatedWorktreeId_read.mpr readable.isolatedWorktreeId
    refine ⟨_, rfl, _, stringField_str.mpr readable.repositoryRoot, readable.root, _,
      scopesField_strings.mpr ⟨readable.scopeCount, readable.writeScopes⟩, _, isolatedRead, _,
      stringField_str.mpr readable.reservationId, _, stringField_str.mpr readable.parentSessionId,
      _, localOwnerId_eq_ok.mpr ⟨stringField_str.mpr readable.ownerId, readable.owner⟩, _,
      stringField_str.mpr readable.taskId, _, stringField_str.mpr readable.attemptId, _,
      positiveFencingToken_eq_ok.mpr ⟨rfl, readable.fencingToken⟩, _,
      stringField_str.mpr readable.executionRoot, _,
      stringField_str.mpr readable.executionIdentity, _,
      stringField_str.mpr readable.createdAt, ?_⟩
    rw [same]

/-- A written store is read back exactly when it is readable. -/
theorem parseStore_toJson {size : Nat} {store : PersistedReservationStore} :
    parseStore size store.toJson store.repositoryRoot = .ok store ↔ ReadableStore size store := by
  simp only [parseStore, PersistedReservationStore.toJson, Json.field, List.lookup_cons,
    String.reduceBEq, reservationsField, List.length_map, bind_eq_ok, throwPlainIf_eq_ok,
    exists_unit, pure_eq_ok, not_not, not_lt, ne_eq]
  constructor
  · rintro ⟨small, -, root, rootRead, rootSame, records, ⟨few, recordsRead⟩, distinct, same⟩
    obtain rfl : records = store.reservations := congrArg (·.reservations) same
    exact {
      size := small
      repositoryRoot := stringField_str.mp (rootSame ▸ rootRead)
      count := few
      reservations := fun record member =>
        parseReservation_toJson.mp (mapOutcome_map.mp recordsRead record member)
      distinct := distinct }
  · intro readable
    refine ⟨readable.size, trivial, store.repositoryRoot, ?_, rfl, store.reservations,
      ⟨readable.count, ?_⟩, readable.distinct, rfl⟩
    · exact stringField_str.mpr readable.repositoryRoot
    · exact mapOutcome_map.mpr fun record member =>
        parseReservation_toJson.mpr (readable.reservations record member)

/-- A readable store is accepted for its own root only. -/
theorem eq_of_parseStore {size : Nat} {store read : PersistedReservationStore}
    (readable : ReadableStore size store)
    (parsed : parseStore size store.toJson repositoryRoot = .ok read) :
    repositoryRoot = store.repositoryRoot ∧ read = store := by
  have own := parseStore_toJson.mpr readable
  have same : repositoryRoot = store.repositoryRoot := by
    simp only [parseStore, PersistedReservationStore.toJson, Json.field, List.lookup_cons,
      String.reduceBEq, bind_eq_ok, throwPlainIf_eq_ok, exists_unit, not_not, ne_eq] at parsed
    obtain ⟨-, -, root, rootRead, rootSame, -⟩ := parsed
    obtain ⟨_, found, trimmed, -⟩ := stringField_eq_ok.mp rootRead
    cases found
    rw [← rootSame, ← trimmed, readable.repositoryRoot.trimmed]
  rw [same, own] at parsed
  exact ⟨same, (Except.ok.inj parsed).symm⟩

/-- The resolved paths and the identity built from them already have the form of stored texts. -/
structure PlainPaths (request : CanonicalRequest) : Prop where
  repositoryRoot : IsBoundedText MAX_PATH_CHARS request.workspace.repositoryRoot
  executionRoot : IsBoundedText MAX_PATH_CHARS request.workspace.executionRoot
  executionIdentity : IsBoundedText MAX_PATH_CHARS request.workspace.executionIdentity
  writeScopes : ∀ scope ∈ request.writeScopes, IsBoundedText MAX_PATH_CHARS scope

/-- What a checked request guarantees whatever its paths resolve to. -/
structure CheckedRequest (request : CanonicalRequest) : Prop where
  parentSessionId : IsBoundedText MAX_IDENTIFIER_CHARS request.parentSessionId
  ownerId : IsBoundedText MAX_IDENTIFIER_CHARS request.ownerId
  owner : parseLocalWorkerProcessOwnerId request.ownerId ≠ none
  taskId : IsBoundedText MAX_IDENTIFIER_CHARS request.taskId
  attemptId : IsBoundedText MAX_IDENTIFIER_CHARS request.attemptId
  fencingToken : isSafeInteger request.fencingToken = true ∧ ¬request.fencingToken < 1
  isolatedWorktreeId : ∀ id, request.workspace.isolatedWorktreeId = some id →
    IsBoundedText MAX_IDENTIFIER_CHARS id
  scopeCount : request.writeScopes.length ≠ 0 ∧ request.writeScopes.length ≤ MAX_SCOPES

theorem distinctTexts_count {texts : List String} {bound : Nat}
    (count : texts.length ≠ 0 ∧ texts.length ≤ bound) :
    (sortTexts (distinctTexts texts)).length ≠ 0 ∧
      (sortTexts (distinctTexts texts)).length ≤ bound := by
  rw [(sortTexts_perm _).length_eq]
  refine ⟨?_, le_trans (length_distinctTexts_le texts) count.2⟩
  cases texts with
  | nil => exact absurd rfl count.1
  | cons text texts =>
      unfold distinctTexts
      rw [List.eraseDups_cons]
      simp

variable {safeRealpathSync : String → Outcome String}

theorem isolatedWorktreeId_checked {rules : PathRules} {workspace : Workspace}
    {canonical : CanonicalWorkspace}
    (resolved : canonicalWorkspace rules safeRealpathSync workspace = .ok canonical) (id : String)
    (present : canonical.isolatedWorktreeId = some id) : IsBoundedText MAX_IDENTIFIER_CHARS id := by
  simp only [canonicalWorkspace, bind_eq_ok, throwPlainIf_eq_ok, exists_unit, pure_eq_ok]
    at resolved
  obtain ⟨_, -, _, -, isolated, read, -, -, rfl⟩ := resolved
  obtain rfl : isolated = some id := present
  unfold optionalOutcome at read
  split at read
  · cases read
  · simp only [bind_eq_ok, pure_eq_ok, Option.some.injEq] at read
    obtain ⟨_, required, rfl⟩ := read
    exact (requireBoundedTrimmedText_eq_ok.mp required).2

theorem checkedRequest {rules : PathRules} {request : WorkerWriteReservationRequest}
    {canonical : CanonicalRequest}
    (valid : canonicalRequest rules safeRealpathSync request = .ok canonical) :
    CheckedRequest canonical := by
  simp only [canonicalRequest, bind_eq_ok, throwPlainIf_eq_ok, exists_unit, pure_eq_ok, not_or,
    not_lt] at valid
  obtain ⟨count, workspace, resolved, scopes, scopesRead, -, session, sessionRead, owner,
    ownerRead, task, taskRead, attempt, attemptRead, fence, fenceRead, rfl⟩ := valid
  obtain ⟨ownerBounded, owned⟩ := localOwnerId_eq_ok.mp ownerRead
  obtain ⟨rfl, fenced⟩ := positiveFencingToken_eq_ok.mp fenceRead
  obtain ⟨_, _, _, bounded⟩ := stringField_eq_ok.mp ownerBounded
  exact {
    parentSessionId := (requireBoundedTrimmedText_eq_ok.mp sessionRead).2
    ownerId := bounded
    owner := owned
    taskId := (requireBoundedTrimmedText_eq_ok.mp taskRead).2
    attemptId := (requireBoundedTrimmedText_eq_ok.mp attemptRead).2
    fencingToken := fenced
    isolatedWorktreeId := isolatedWorktreeId_checked resolved
    scopeCount := distinctTexts_count (by rwa [length_mapOutcome scopesRead]) }

/-- The record of a checked request is readable exactly when its paths are plain. -/
theorem readable_record_iff {request : CanonicalRequest} {randomUUID createdAt : String}
    (checked : CheckedRequest request) (id : IsBoundedText MAX_IDENTIFIER_CHARS randomUUID)
    (created : IsBoundedText MAX_IDENTIFIER_CHARS createdAt) :
    ReadableReservation request.workspace.repositoryRoot (request.record randomUUID createdAt) ↔
      PlainPaths request := by
  constructor
  · intro readable
    exact {
      repositoryRoot := readable.repositoryRoot
      executionRoot := readable.executionRoot
      executionIdentity := readable.executionIdentity
      writeScopes := readable.writeScopes }
  · intro plain
    exact {
      reservationId := id
      parentSessionId := checked.parentSessionId
      ownerId := checked.ownerId
      owner := checked.owner
      taskId := checked.taskId
      attemptId := checked.attemptId
      fencingToken := checked.fencingToken
      root := rfl
      repositoryRoot := plain.repositoryRoot
      executionRoot := plain.executionRoot
      executionIdentity := plain.executionIdentity
      isolatedWorktreeId := fun present isolated =>
        checked.isolatedWorktreeId present (truthy_eq_some.mp isolated).1
      scopeCount := checked.scopeCount
      writeScopes := plain.writeScopes
      createdAt := created }

end PiAdaptative.WriteReservations
