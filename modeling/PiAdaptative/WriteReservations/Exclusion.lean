import PiAdaptative.WriteReservations.Operations
import PiAdaptative.Foundations.Execution

/-!
# Exclusion of overlapping reservations

Along every run of acquire and release calls the files are read back as they were written and no
two reservations of one checkout overlap, exactly as long as no call stores a reservation whose
resolved paths the reader changes or rejects, or whose checkout another repository root has
reserved.
-/

namespace PiAdaptative.WriteReservations

/-! ## What the files promise -/

/-- What holds of the files of an agent directory. -/
structure Sound (host : Host) (directory : Directory) : Prop where
  /-- Every file is accepted and read back with the reservations it was written with. -/
  readBack : ∀ filePath store, directory filePath = some store →
    parseStore (host.bytes store.toJson) store.toJson store.repositoryRoot = .ok store
  exclusive : ∀ firstFile first secondFile second, Stored directory firstFile first →
    Stored directory secondFile second → (firstFile, first) ≠ (secondFile, second) →
    first.executionIdentity = second.executionIdentity →
    scopesOverlap host.paths first.writeScopes second.writeScopes = false
  attempts : ∀ filePath first second, Stored directory filePath first →
    Stored directory filePath second → first.parentSessionId = second.parentSessionId →
    first.ownerId = second.ownerId → first.taskId = second.taskId →
    first.attemptId = second.attemptId → first.fencingToken = second.fencingToken →
    first = second

/-- What one call of `acquire` does. -/
structure AcquireConforms (host : Host) (directory : Directory) (call : AcquireCall) : Prop where
  blocked : ∀ reason ids conflicts,
    (acquire host call directory).1 = .ok (.blocked reason ids conflicts) →
    (acquire host call directory).2 = directory
  failed : ∀ error, (acquire host call directory).1 = .error error →
    (acquire host call directory).2 = directory
  /-- A request of a stored attempt and fence stores nothing, and gets the stored reservation when
  it asks for the same scopes of the same checkout. -/
  again : ∀ request record, call.request.access = .write →
    canonicalRequest host.paths call.safeRealpathSync call.request = .ok request →
    Stored directory (reservationFile host request.workspace.repositoryRoot) record →
    request.sameAttempt record = true →
    (acquire host call directory).2 = directory ∧
      (request.sameReservation record = true → call.files.lock = .ok () →
        call.files.read = .ok () → record.repositoryRoot = request.workspace.repositoryRoot →
        (acquire host call directory).1 = .ok (.granted (some (leaseFromRecord
          (reservationFile host request.workspace.repositoryRoot) record))))

/-- What one call of `release` does: nothing, or it removes the one reservation that the lease was
given for. -/
def ReleaseConforms (host : Host) (directory : Directory) (files : FileAccess)
    (lease : WorkerWriteReservationLease) : Prop :=
  ((release host files lease directory).1 ≠ .ok .released ∧
      (release host files lease directory).2 = directory) ∨
    ((release host files lease directory).1 = .ok .released ∧
      ∃ record, Stored directory lease.filePath record ∧
        record.reservationId = lease.reservationId ∧
        holdsLease (trim lease.ownerId) lease record = true ∧
        ∀ filePath other, Stored (release host files lease directory).2 filePath other ↔
          Stored directory filePath other ∧ (filePath, other) ≠ (lease.filePath, record))

def Conforms (host : Host) (directory : Directory) : Call → Prop
  | .acquire call => AcquireConforms host directory call
  | .release files lease => ReleaseConforms host directory files lease

/-! ## The calls that go wrong -/

/-- The same checkout is reserved with overlapping scopes under another repository root. -/
def ReservedElsewhere (host : Host) (directory : Directory) (request : CanonicalRequest) : Prop :=
  ∃ filePath record, filePath ≠ reservationFile host request.workspace.repositoryRoot ∧
    Stored directory filePath record ∧
    record.executionIdentity = request.workspace.executionIdentity ∧
    scopesOverlap host.paths record.writeScopes request.writeScopes = true

/-- A call that stores paths in another form than the reader keeps, or a checkout that is reserved
under another repository root. -/
def Breaks (host : Host) (directory : Directory) : Call → Prop
  | .acquire call => ∃ request store, Admits host directory call request store ∧
      (¬PlainPaths request ∨ ReservedElsewhere host directory request)
  | .release _ _ => False

/-! ## Sound files -/

section Steps

variable {host : Host} {directory : Directory}

variable {store : PersistedReservationStore} {filePath repositoryRoot : String}

/-- What a call reads from sound files is what the file was written with. -/
theorem readLocked_of_sound {files : FileAccess} (sound : Sound host directory)
    (read : readLocked host files directory filePath repositoryRoot = .ok store) :
    store.repositoryRoot = repositoryRoot ∧
      ((directory filePath = none ∧ store.reservations = []) ∨
        directory filePath = some store) := by
  unfold readLocked at read
  split at read
  next absent =>
    cases read
    exact ⟨rfl, Or.inl ⟨absent, rfl⟩⟩
  next stored present =>
    simp only [bind_eq_ok, exists_unit] at read
    have readable := parseStore_toJson.mp (sound.readBack filePath stored present)
    obtain ⟨same, rfl⟩ := eq_of_parseStore readable read.2
    exact ⟨same.symm, Or.inr present⟩

theorem stored_iff_mem {files : FileAccess} (sound : Sound host directory)
    (read : readLocked host files directory filePath repositoryRoot = .ok store)
    (record : PersistedReservation) :
    Stored directory filePath record ↔ record ∈ store.reservations := by
  unfold Stored
  rcases (readLocked_of_sound sound read).2 with ⟨absent, empty⟩ | present
  · simp [absent, empty]
  · simp [present]

/-! ## Storing a request -/

variable {record : PersistedReservation}

section Storing

variable {call : AcquireCall} {request : CanonicalRequest} {store : PersistedReservationStore}

theorem stored_storedIn (sound : Sound host directory)
    (admitted : Admits host directory call request store) (filePath : String)
    (record : PersistedReservation) :
    Stored (request.storedIn host call directory store) filePath record ↔
      Stored directory filePath record ∨
        (filePath = reservationFile host request.workspace.repositoryRoot ∧
          record = request.record call.randomUUID call.createdAt) := by
  by_cases here : filePath = reservationFile host request.workspace.repositoryRoot
  · subst here
    rw [stored_iff_mem sound admitted.read]
    simp [Stored, CanonicalRequest.storedIn]
  · simp [Stored, CanonicalRequest.storedIn, here]

/-- The new file is read back exactly when the resolved paths are plain. -/
theorem readBack_storedIn (sound : Sound host directory) (drawn : call.Drawn directory)
    (admitted : Admits host directory call request store) :
    (∀ filePath written, request.storedIn host call directory store filePath = some written →
        parseStore (host.bytes written.toJson) written.toJson written.repositoryRoot =
          .ok written) ↔ PlainPaths request := by
  have checked := checkedRequest admitted.valid
  obtain ⟨root, file⟩ := readLocked_of_sound sound admitted.read
  constructor
  · intro readBack
    have readable := parseStore_toJson.mp (readBack
      (reservationFile host request.workspace.repositoryRoot) _ (Function.update_self _ _ _))
    refine (readable_record_iff checked drawn.id drawn.created).mp ?_
    rw [← root]
    exact readable.reservations _ (List.mem_append_right _ List.mem_cons_self)
  · intro plain filePath written present
    by_cases here : filePath = reservationFile host request.workspace.repositoryRoot
    · subst here
      rw [CanonicalRequest.storedIn, Function.update_self, Option.some.injEq] at present
      subst present
      have old : ∀ record ∈ store.reservations,
          ReadableReservation store.repositoryRoot record := by
        rcases file with ⟨-, empty⟩ | before
        · simp [empty]
        · exact (parseStore_toJson.mp (sound.readBack _ _ before)).reservations
      have distinct : (store.reservations.map PersistedReservation.reservationId).Nodup := by
        rcases file with ⟨-, empty⟩ | before
        · simp [empty]
        · exact (parseStore_toJson.mp (sound.readBack _ _ before)).distinct
      refine parseStore_toJson.mpr {
        size := admitted.size
        repositoryRoot := root ▸ plain.repositoryRoot
        count := by simpa using Nat.succ_le_of_lt admitted.room
        reservations := ?_
        distinct := ?_ }
      · intro record member
        rcases List.mem_append.mp member with earlier | new
        · exact old record earlier
        · obtain rfl := List.mem_singleton.mp new
          rw [root]
          exact (readable_record_iff checked drawn.id drawn.created).mpr plain
      · rw [List.map_append, List.nodup_append]
        refine ⟨distinct, List.nodup_singleton _, ?_⟩
        rintro _ earlier _ new rfl
        obtain ⟨record, member, same⟩ := List.mem_map.mp earlier
        refine drawn.fresh _ record ((stored_iff_mem sound admitted.read record).mpr member) ?_
        rw [same]
        simpa [CanonicalRequest.record] using new
    · rw [CanonicalRequest.storedIn, Function.update_of_ne here] at present
      exact sound.readBack filePath written present

theorem scopesOverlap_comm (rules : PathRules) (first second : List String) :
    scopesOverlap rules first second = scopesOverlap rules second first := by
  rw [Bool.eq_iff_iff]
  simp only [scopesOverlap, List.any_eq_true]
  constructor
  · rintro ⟨reserved, reservedMember, requested, requestedMember, overlap⟩
    rw [rules.pathScopesOverlap_comm] at overlap
    exact ⟨requested, requestedMember, reserved, reservedMember, overlap⟩
  · rintro ⟨requested, requestedMember, reserved, reservedMember, overlap⟩
    rw [rules.pathScopesOverlap_comm] at overlap
    exact ⟨reserved, reservedMember, requested, requestedMember, overlap⟩

/-- An admitted request overlaps no stored reservation of its checkout, unless the checkout is
reserved under another repository root. -/
theorem Admits.disjoint (sound : Sound host directory)
    (admitted : Admits host directory call request store)
    (elsewhere : ¬ReservedElsewhere host directory request) {filePath : String}
    (stored : Stored directory filePath record)
    (same : record.executionIdentity = request.workspace.executionIdentity) :
    scopesOverlap host.paths record.writeScopes request.writeScopes = false := by
  rw [Bool.eq_false_iff]
  intro overlap
  by_cases here : filePath = reservationFile host request.workspace.repositoryRoot
  · subst here
    have member := (stored_iff_mem sound admitted.read record).mp stored
    have free := admitted.free
    simp only [overlappingReservationIds, List.map_eq_nil_iff, List.filter_eq_nil_iff] at free
    exact free record member (by simp [same, overlap])
  · exact elsewhere ⟨filePath, record, here, stored, same, overlap⟩

/-- Storing an admitted request keeps the files sound, unless the call breaks them. -/
theorem sound_storedIn (sound : Sound host directory) (drawn : call.Drawn directory)
    (admitted : Admits host directory call request store) (plain : PlainPaths request)
    (elsewhere : ¬ReservedElsewhere host directory request) :
    Sound host (request.storedIn host call directory store) where
  readBack := (readBack_storedIn sound drawn admitted).mpr plain
  exclusive := by
    intro firstFile first secondFile second firstStored secondStored distinct same
    rw [stored_storedIn sound admitted] at firstStored secondStored
    rcases firstStored with firstOld | ⟨rfl, rfl⟩
    · rcases secondStored with secondOld | ⟨rfl, rfl⟩
      · exact sound.exclusive _ _ _ _ firstOld secondOld distinct same
      · exact admitted.disjoint sound elsewhere firstOld same
    · rcases secondStored with secondOld | ⟨rfl, rfl⟩
      · rw [scopesOverlap_comm]
        exact admitted.disjoint sound elsewhere secondOld same.symm
      · exact absurd rfl distinct
  attempts := by
    have new : ∀ record, Stored directory
        (reservationFile host request.workspace.repositoryRoot) record →
        request.sameAttempt record = false := by
      intro record stored
      rw [stored_iff_mem sound admitted.read] at stored
      have absent := List.find?_eq_none.mp admitted.new record stored
      simpa using absent
    intro filePath first second firstStored secondStored session owner task attempt fence
    rw [stored_storedIn sound admitted] at firstStored secondStored
    rcases firstStored with firstOld | ⟨rfl, rfl⟩
    · rcases secondStored with secondOld | ⟨rfl, rfl⟩
      · exact sound.attempts _ _ _ firstOld secondOld session owner task attempt fence
      · have fresh := new first firstOld
        rw [CanonicalRequest.sameAttempt, decide_eq_false_iff_not] at fresh
        exact absurd ⟨session, owner, task, attempt, fence⟩ fresh
    · rcases secondStored with secondOld | ⟨-, rfl⟩
      · have fresh := new second secondOld
        rw [CanonicalRequest.sameAttempt, decide_eq_false_iff_not] at fresh
        exact absurd ⟨session.symm, owner.symm, task.symm, attempt.symm, fence.symm⟩ fresh
      · rfl

end Storing

/-! ## Releasing a lease -/

variable {after : Directory}

section Releasing

/-- Erasing the record of an id from records with distinct ids removes that record only. -/
theorem mem_eraseP_reservationId {records : List PersistedReservation} {id : String}
    (distinct : (records.map PersistedReservation.reservationId).Nodup)
    (found : records.find? (fun reservation => reservation.reservationId = id) = some record)
    (other : PersistedReservation) :
    other ∈ records.eraseP (fun reservation => reservation.reservationId = id) ↔
      other ∈ records ∧ other ≠ record := by
  induction records with
  | nil => simp at found
  | cons first rest ih =>
      obtain ⟨fresh, distinct⟩ := List.nodup_cons.mp distinct
      by_cases here : first.reservationId = id
      · simp only [List.find?_cons, here, decide_true, Option.some.injEq] at found
        subst found
        simp only [List.eraseP_cons, here, decide_true, cond_true, List.mem_cons]
        constructor
        · intro member
          refine ⟨Or.inr member, ?_⟩
          rintro rfl
          exact fresh (List.mem_map_of_mem member)
        · rintro ⟨rfl | member, different⟩
          · exact absurd rfl different
          · exact member
      · simp only [List.find?_cons, here, decide_false] at found
        simp only [List.eraseP_cons, here, decide_false, cond_false, List.mem_cons,
          ih distinct found]
        constructor
        · rintro (rfl | ⟨member, different⟩)
          · refine ⟨Or.inl rfl, ?_⟩
            rintro rfl
            exact fresh (List.mem_map_of_mem (List.mem_of_find?_eq_some found))
          · exact ⟨Or.inr member, different⟩
        · rintro ⟨rfl | member, different⟩
          · exact Or.inl rfl
          · exact Or.inr ⟨member, different⟩

theorem sound_of_subset (sound : Sound host directory)
    (readBack : ∀ filePath store, after filePath = some store →
      parseStore (host.bytes store.toJson) store.toJson store.repositoryRoot = .ok store)
    (subset : ∀ filePath record, Stored after filePath record →
      Stored directory filePath record) : Sound host after where
  readBack := readBack
  exclusive _ _ _ _ firstStored secondStored :=
    sound.exclusive _ _ _ _ (subset _ _ firstStored) (subset _ _ secondStored)
  attempts _ _ _ firstStored secondStored :=
    sound.attempts _ _ _ (subset _ _ firstStored) (subset _ _ secondStored)

/-- What a release does to sound files. -/
theorem release_effect (sound : Sound host directory) (files : FileAccess)
    (lease : WorkerWriteReservationLease) :
    ReleaseConforms host directory files lease ∧
      Sound host (release host files lease directory).2 := by
  rcases release_cases host directory files lease with
    ⟨kept, same⟩ | ⟨root, store, record, read, found, holds, released, written⟩
  · refine ⟨Or.inl ⟨kept, same⟩, ?_⟩
    rw [same]
    exact sound
  · have stored := stored_iff_mem sound read
    have member : record ∈ store.reservations := List.mem_of_find?_eq_some found
    have present : directory lease.filePath = some store := by
      rcases (readLocked_of_sound sound read).2 with ⟨-, empty⟩ | present
      · simp [empty] at member
      · exact present
    have readable := parseStore_toJson.mp (sound.readBack _ _ present)
    have erased := mem_eraseP_reservationId readable.distinct found
    have elsewhere : ∀ filePath, filePath ≠ lease.filePath →
        (release host files lease directory).2 filePath = directory filePath := by
      intro filePath away
      rcases written with ⟨-, same⟩ | ⟨-, same⟩ <;> rw [same, Function.update_of_ne away]
    have remaining : ∀ other, Stored (release host files lease directory).2 lease.filePath other ↔
        other ∈ store.reservations ∧ other ≠ record := by
      intro other
      rw [← erased other]
      rcases written with ⟨empty, same⟩ | ⟨-, same⟩
      · simp [Stored, same, empty]
      · simp [Stored, same]
    have removed : ∀ filePath other,
        Stored (release host files lease directory).2 filePath other ↔
          Stored directory filePath other ∧ (filePath, other) ≠ (lease.filePath, record) := by
      intro filePath other
      by_cases here : filePath = lease.filePath
      · subst here
        rw [remaining, stored]
        simp
      · simp [Stored, elsewhere filePath here, here]
    refine ⟨Or.inr ⟨released, record, (stored record).mpr member, ?_, holds, removed⟩, ?_⟩
    · simpa using List.find?_some found
    · refine sound_of_subset sound ?_ fun filePath other after => ((removed _ _).mp after).1
      intro filePath rest after
      by_cases here : filePath = lease.filePath
      · subst here
        rcases written with ⟨-, same⟩ | ⟨size, same⟩
        · simp [same] at after
        · rw [same, Function.update_self, Option.some.injEq] at after
          subst after
          have shorter := List.eraseP_sublist (l := store.reservations)
            (p := fun reservation => reservation.reservationId = lease.reservationId)
          exact parseStore_toJson.mpr {
            size := size
            repositoryRoot := readable.repositoryRoot
            count := le_trans shorter.length_le readable.count
            reservations := fun other kept => readable.reservations other (shorter.subset kept)
            distinct := (shorter.map _).nodup readable.distinct }
      · rw [elsewhere filePath here] at after
        exact sound.readBack filePath rest after

end Releasing

/-! ## Acquiring -/

/-- A request that repeats a stored reservation gets it again. -/
theorem acquire_again (sound : Sound host directory) {call : AcquireCall}
    {request : CanonicalRequest} (access : call.request.access = .write)
    (valid : canonicalRequest host.paths call.safeRealpathSync call.request = .ok request)
    (stored : Stored directory (reservationFile host request.workspace.repositoryRoot) record)
    (again : request.sameAttempt record = true) (asks : request.sameReservation record = true)
    (locked : call.files.lock = .ok ()) (readable : call.files.read = .ok ())
    (root : record.repositoryRoot = request.workspace.repositoryRoot) :
    (acquire host call directory).1 = .ok (.granted (some (leaseFromRecord
      (reservationFile host request.workspace.repositoryRoot) record))) := by
  obtain ⟨store, present, member⟩ := stored
  have own := sound.readBack _ _ present
  have same : store.repositoryRoot = request.workspace.repositoryRoot := by
    rw [← root, ((parseStore_toJson.mp own).reservations record member).root]
  have read : readLocked host call.files directory
      (reservationFile host request.workspace.repositoryRoot) request.workspace.repositoryRoot =
        .ok store := by
    unfold readLocked
    rw [present]
    simp only [bind_eq_ok, exists_unit]
    exact ⟨readable, same ▸ own⟩
  have found : store.reservations.find? request.sameAttempt = some record := by
    cases first : store.reservations.find? request.sameAttempt with
    | none => exact absurd again (List.find?_eq_none.mp first record member)
    | some other =>
        have matching := List.find?_some first
        have isStored := List.mem_of_find?_eq_some first
        simp only [CanonicalRequest.sameAttempt, decide_eq_true_eq] at matching again
        obtain ⟨session, owner, task, attempt, fence⟩ := matching
        rw [sound.attempts _ other record ⟨store, present, isStored⟩ ⟨store, present, member⟩
          (session.trans again.1.symm) (owner.trans again.2.1.symm) (task.trans again.2.2.1.symm)
          (attempt.trans again.2.2.2.1.symm) (fence.trans again.2.2.2.2.symm)]
  have done : acquireLocked host call directory request =
      .ok (.granted (some (leaseFromRecord
        (reservationFile host request.workspace.repositoryRoot) record)), directory) := by
    simp only [acquireLocked, bind_eq_ok]
    refine ⟨store, read, ?_⟩
    rw [found]
    simp only [asks, if_true]
    rfl
  simp [acquire, access, valid, withFileLock, locked, done, Except.bind]

theorem acquire_conforms (sound : Sound host directory) (call : AcquireCall) :
    AcquireConforms host directory call := by
  rcases acquire_cases host directory call with
    ⟨refused, same⟩ | ⟨stored, store, admitted, answer⟩
  · refine ⟨fun _ _ _ _ => same, fun _ _ => same, ?_⟩
    intro request record access valid present again
    exact ⟨same, acquire_again sound access valid present again⟩
  · refine ⟨?_, ?_, ?_⟩
    · intro _ _ _ impossible
      rw [answer] at impossible
      cases impossible
    · intro _ impossible
      rw [answer] at impossible
      cases impossible
    · intro request record access valid present again
      obtain rfl : request = stored := by
        have other := admitted.valid
        rw [valid] at other
        exact Except.ok.inj other
      have absent := List.find?_eq_none.mp admitted.new record
        ((stored_iff_mem sound admitted.read record).mp present)
      exact absurd again absent

/-! ## One call -/

theorem conforms_of_sound (sound : Sound host directory) (call : Call) :
    Conforms host directory call := by
  cases call with
  | acquire call => exact acquire_conforms sound call
  | release files lease => exact (release_effect sound files lease).1

theorem sound_of_step {call : Call} (sound : Sound host directory)
    (taken : Step host directory call after) (unbroken : ¬Breaks host directory call) :
    Sound host after := by
  obtain ⟨drawn, rfl⟩ := taken
  cases call with
  | release files lease => exact (release_effect sound files lease).2
  | acquire call =>
      rcases acquire_cases host directory call with
        ⟨-, same⟩ | ⟨request, store, admitted, answer⟩
      · rw [Call.run, same]
        exact sound
      · rw [Call.run, answer]
        have plain : PlainPaths request := by
          by_contra bad
          exact unbroken ⟨request, store, admitted, Or.inl bad⟩
        refine sound_storedIn sound drawn admitted plain fun elsewhere => ?_
        exact unbroken ⟨request, store, admitted, Or.inr elsewhere⟩

theorem unsound_of_breaks {call : Call} (sound : Sound host directory)
    (taken : Step host directory call after) (broken : Breaks host directory call) :
    ¬Sound host after := by
  obtain ⟨drawn, rfl⟩ := taken
  intro kept
  cases call with
  | release files lease => exact broken
  | acquire call =>
      obtain ⟨request, store, admitted, wrong⟩ := broken
      rcases acquire_cases host directory call with
        ⟨refused, -⟩ | ⟨other, otherStore, otherAdmitted, answer⟩
      · exact refused request store admitted
      · obtain rfl : request = other := by
          have same := admitted.valid
          rw [otherAdmitted.valid] at same
          exact (Except.ok.inj same).symm
        rw [Call.run, answer] at kept
        rcases wrong with crooked | ⟨filePath, record, away, stored, same, overlap⟩
        · exact crooked ((readBack_storedIn sound drawn otherAdmitted).mp kept.readBack)
        · have disjoint := kept.exclusive filePath record
            (reservationFile host request.workspace.repositoryRoot)
            (request.record call.randomUUID call.createdAt)
            ((stored_storedIn sound otherAdmitted _ _).mpr (Or.inl stored))
            ((stored_storedIn sound otherAdmitted _ _).mpr (Or.inr ⟨rfl, rfl⟩))
            (fun same => away (congrArg Prod.fst same)) same
          exact absurd overlap (by simpa [CanonicalRequest.record] using disjoint)

end Steps

/-! ## Runs -/

theorem sound_noFiles (host : Host) : Sound host noFiles where
  readBack := by
    intro filePath store present
    cases present
  exclusive := by
    rintro _ _ _ _ ⟨store, present, -⟩
    cases present
  attempts := by
    rintro _ _ _ ⟨store, present, -⟩
    cases present

/-- Reservations exclude overlap, stay readable and are given back by their holder only in every
run without a call that stores paths in another form than the reader keeps or a checkout that is
reserved under another repository root, and in no other run. -/
theorem reservations_exclude_overlap {host : Host} {history : List (Directory × Call)}
    {directory : Directory} (run : Execution (Step host) noFiles history directory) :
    ((∀ entry ∈ history, Sound host entry.1 ∧ Conforms host entry.1 entry.2) ∧
        Sound host directory) ↔
      ∀ entry ∈ history, ¬Breaks host entry.1 entry.2 := by
  have always := run.always_iff (Sound host) (Sound host) (Breaks host) (sound_noFiles host)
    id sound_of_step unsound_of_breaks
  rw [← always]
  constructor
  · rintro ⟨visited, final⟩
    exact ⟨fun entry member => (visited entry member).1, final⟩
  · rintro ⟨visited, final⟩
    exact ⟨fun entry member =>
      ⟨visited entry member, conforms_of_sound (visited entry member) entry.2⟩, final⟩

/-! ## A root with a trailing space -/

/-- The segments of a path after `.` and `..` are resolved. -/
def resolvedSegments : List (List Char) → List (List Char) → List (List Char)
  | kept, [] => kept
  | kept, segment :: rest =>
      if segment = [] ∨ segment = ['.'] then resolvedSegments kept rest
      else if segment = ['.', '.'] then resolvedSegments kept.dropLast rest
      else resolvedSegments (kept ++ [segment]) rest

def pathSegments (path : String) : List (List Char) :=
  resolvedSegments [] (path.toList.splitOn '/')

def joinSegments (segments : List (List Char)) : String :=
  String.ofList (List.intercalate ['/'] segments)

/-- What is left of two lists after their common start. -/
def afterCommonStart : List (List Char) → List (List Char) → List (List Char) × List (List Char)
  | first :: firsts, second :: seconds =>
      if first = second then afterCommonStart firsts seconds
      else (first :: firsts, second :: seconds)
  | firsts, seconds => (firsts, seconds)

def absolutePosix : PathApi where
  resolve path := "/" ++ joinSegments (pathSegments path)
  relative source target :=
    let rest := afterCommonStart (pathSegments source) (pathSegments target)
    joinSegments (rest.1.map (fun _ => ['.', '.']) ++ rest.2)
  isAbsolute path := startsWith path "/"
  sep := "/"

/-- A host whose agent directory has reservations of the repositories `/work` and `/work `. -/
def workHost : Host where
  paths := { posix := absolutePosix, win32 := absolutePosix, toLowerCase := String.toLower }
  sha256 text :=
    if text = "pi-worker-write-reservations-v1" ++ "\x00" ++ "/work" then
      "d79f772ace3e0f7d654b4a534fb6738a9db930e34e409787b210e260d1a9ddbe"
    else
      "db2e8d0b461a4732dc8bb42e49b791c48474f83781debe62a6bc279de1825e9d"
  stateFile name := "/agent/state/orchestration/worker-write-reservations/" ++ name
  bytes content := utf8Length (Json.plainText content) + 1

/-- A file system that does what it is asked. -/
def plainFiles : FileAccess where
  lock := .ok ()
  read := .ok ()
  write := .ok ()

/-- A request of an attempt for all of a repository whose root is its own real path. -/
def wholeRepository (repositoryRoot attemptId : String) : AcquireCall where
  request := {
    parentSessionId := "session"
    ownerId := "pi-worker:7:00000000-0000-4000-8000-000000000000"
    taskId := "task"
    attemptId
    fencingToken := 1
    access := .write
    workspace := { repositoryRoot, executionRoot := repositoryRoot, isolatedWorktreeId := none }
    writeScopes := [repositoryRoot] }
  safeRealpathSync path := .ok path
  files := plainFiles
  randomUUID := "00000000-0000-4000-8000-000000000001"
  createdAt := "2026-01-01T00:00:00.000Z"

/-- The files after one request on an empty agent directory. -/
def afterFirst (repositoryRoot : String) : Directory :=
  (acquire workHost (wholeRepository repositoryRoot "first") noFiles).2

theorem run_first (repositoryRoot : String) :
    Execution (Step workHost) noFiles
      [(noFiles, .acquire (wholeRepository repositoryRoot "first"))]
      (afterFirst repositoryRoot) := by
  refine Execution.single ⟨⟨?_, ?_, ?_⟩, rfl⟩
  · change IsBoundedText 256 "00000000-0000-4000-8000-000000000001"
    decide
  · change IsBoundedText 256 "2026-01-01T00:00:00.000Z"
    decide
  · rintro _ _ ⟨_, present, -⟩
    cases present

/-- A reservation of `/work` keeps the files sound. -/
theorem whole_repository_is_sound : Sound workHost (afterFirst "/work") := by
  refine ((reservations_exclude_overlap (run_first "/work")).mpr ?_).2
  intro entry member
  obtain rfl := List.mem_singleton.mp member
  rintro ⟨request, store, admitted, wrong⟩
  have valid : canonicalRequest workHost.paths (fun path => .ok path)
      (wholeRepository "/work" "first").request = .ok {
        workspace := ⟨"/work", "/work", "shared:/work", none⟩
        writeScopes := ["/work"]
        parentSessionId := "session"
        ownerId := "pi-worker:7:00000000-0000-4000-8000-000000000000"
        taskId := "task"
        attemptId := "first"
        fencingToken := 1 } := by decide +kernel
  obtain rfl := Except.ok.inj (admitted.valid.symm.trans valid)
  rcases wrong with crooked | ⟨_, _, -, ⟨_, present, -⟩, -⟩
  · exact crooked ⟨by decide, by decide, by decide, by decide⟩
  · cases present

/-- The request for `/work /.` is granted, resolves to a root with a trailing space, and leaves a
file that no later request of that repository can read. -/
theorem trailing_space_root_blocks_repository :
    Execution (Step workHost) noFiles [(noFiles, .acquire (wholeRepository "/work /." "first"))]
        (afterFirst "/work /.") ∧
      ¬Sound workHost (afterFirst "/work /.") ∧
      (acquire workHost (wholeRepository "/work /." "second") (afterFirst "/work /.")).1 =
        .error (.plain
          "Worker write reservation store root conflicts with the requested workspace.") := by
  refine ⟨run_first _, fun sound => ?_, by decide +kernel⟩
  have written : (afterFirst "/work /." (reservationFile workHost "/work ")).map
      PersistedReservationStore.repositoryRoot = some "/work " := by decide +kernel
  obtain ⟨store, present, root⟩ := Option.map_eq_some_iff.mp written
  have readable := parseStore_toJson.mp (sound.readBack _ store present)
  have trimmed := readable.repositoryRoot.trimmed
  rw [root] at trimmed
  exact absurd trimmed (by decide)

end PiAdaptative.WriteReservations
