import PiAdaptative.WriteReservations.Readability

/-!
# Acquire and release

What the two operations of the store can do to the files: a request is stored exactly when it is
admitted, a released lease removes one record, and every other call leaves the files as they were.
-/

namespace PiAdaptative.WriteReservations

/-- A write request that `acquire` stores: it is valid, its file is free to write, and no stored
reservation of the file is in its way. -/
structure Admits (host : Host) (directory : Directory) (call : AcquireCall)
    (request : CanonicalRequest) (store : PersistedReservationStore) : Prop where
  access : call.request.access = .write
  valid : canonicalRequest host.paths call.safeRealpathSync call.request = .ok request
  lock : call.files.lock = .ok ()
  read : readLocked host call.files directory
    (reservationFile host request.workspace.repositoryRoot) request.workspace.repositoryRoot =
      .ok store
  new : store.reservations.find? request.sameAttempt = none
  free : overlappingReservationIds host.paths store.reservations
    request.workspace.executionIdentity request.writeScopes = []
  room : store.reservations.length < MAX_RESERVATIONS
  size : host.bytes (PersistedReservationStore.toJson { store with
    reservations := store.reservations ++ [request.record call.randomUUID call.createdAt] }) ≤
      MAX_FILE_BYTES
  write : call.files.write = .ok ()

section Steps

variable {host : Host} {directory : Directory}

variable {store : PersistedReservationStore}

theorem writeStore_eq_ok {files : FileAccess} {filePath : String} {after : Directory} :
    writeStore host files directory filePath store = .ok after ↔
      host.bytes store.toJson ≤ MAX_FILE_BYTES ∧ files.write = .ok () ∧
        after = Function.update directory filePath (some store) := by
  simp only [writeStore, bind_eq_ok, throwPlainIf_eq_ok, exists_unit, pure_eq_ok, not_lt]
  rw [@eq_comm _ after]

theorem withFileLock_cases {α : Type} (files : FileAccess) (directory : Directory)
    (body : Outcome (α × Directory)) :
    (∃ error, withFileLock files directory body = (.error error, directory)) ∨
      ∃ result after, files.lock = .ok () ∧ body = .ok (result, after) ∧
        withFileLock files directory body = (.ok result, after) := by
  unfold withFileLock
  cases locked : files.lock with
  | error error => exact Or.inl ⟨error, rfl⟩
  | ok _ =>
      cases done : body with
      | error error => exact Or.inl ⟨error, rfl⟩
      | ok both => exact Or.inr ⟨both.1, both.2, rfl, rfl, rfl⟩

/-- The files after a request is stored. -/
def CanonicalRequest.storedIn (request : CanonicalRequest) (host : Host) (call : AcquireCall)
    (directory : Directory) (store : PersistedReservationStore) : Directory :=
  Function.update directory (reservationFile host request.workspace.repositoryRoot)
    (some { store with
      reservations := store.reservations ++ [request.record call.randomUUID call.createdAt] })

variable {request : CanonicalRequest}

/-- Under the lock of its file a valid request is stored exactly when it is admitted. -/
theorem acquireLocked_cases {call : AcquireCall} {result : AcquireResult} {after : Directory}
    (access : call.request.access = .write)
    (valid : canonicalRequest host.paths call.safeRealpathSync call.request = .ok request)
    (locked : call.files.lock = .ok ())
    (done : acquireLocked host call directory request = .ok (result, after)) :
    (after = directory ∧ ∀ store, ¬Admits host directory call request store) ∨
      ∃ store, Admits host directory call request store ∧
        after = request.storedIn host call directory store ∧
        result = .granted (some (leaseFromRecord
          (reservationFile host request.workspace.repositoryRoot)
          (request.record call.randomUUID call.createdAt))) := by
  simp only [acquireLocked, bind_eq_ok] at done
  obtain ⟨store, read, done⟩ := done
  have only : ∀ other, Admits host directory call request other → other = store := by
    intro other admitted
    have same := admitted.read
    rw [read] at same
    exact (Except.ok.inj same).symm
  split at done
  next matching found =>
    refine Or.inl ⟨?_, fun other admitted => ?_⟩
    · split at done <;> cases done <;> rfl
    · obtain rfl := only other admitted
      rw [admitted.new] at found
      cases found
  next absent =>
    split at done
    next conflicts =>
      cases done
      refine Or.inl ⟨rfl, fun other admitted => ?_⟩
      obtain rfl := only other admitted
      exact conflicts admitted.free
    next free =>
      split at done
      next full =>
        cases done
        refine Or.inl ⟨rfl, fun other admitted => ?_⟩
        obtain rfl := only other admitted
        exact absurd admitted.room (not_lt.mpr full)
      next room =>
        simp only [bind_eq_ok, pure_eq_ok, Prod.mk.injEq, writeStore_eq_ok] at done
        obtain ⟨_, ⟨size, written, rfl⟩, rfl, rfl⟩ := done
        refine Or.inr ⟨store, ?_, rfl, rfl⟩
        exact {
          access, valid
          lock := locked
          read := read
          new := absent
          free := not_not.mp free
          room := not_le.mp room
          size := size
          write := written }

theorem acquireLocked_of_admits {call : AcquireCall}
    (admitted : Admits host directory call request store) :
    acquireLocked host call directory request =
      .ok (.granted (some (leaseFromRecord (reservationFile host request.workspace.repositoryRoot)
        (request.record call.randomUUID call.createdAt))),
        request.storedIn host call directory store) := by
  simp only [acquireLocked, bind_eq_ok]
  refine ⟨store, admitted.read, ?_⟩
  rw [admitted.new]
  rw [if_neg (not_not.mpr admitted.free), if_neg (not_le.mpr admitted.room)]
  simp only [bind_eq_ok, pure_eq_ok, writeStore_eq_ok]
  exact ⟨_, ⟨admitted.size, admitted.write, rfl⟩, rfl⟩

/-- A request is stored exactly when it is admitted; otherwise the files stay as they were. -/
theorem acquire_cases (host : Host) (directory : Directory) (call : AcquireCall) :
    ((∀ request store, ¬Admits host directory call request store) ∧
        (acquire host call directory).2 = directory) ∨
      ∃ request store, Admits host directory call request store ∧
        acquire host call directory =
          (.ok (.granted (some (leaseFromRecord
              (reservationFile host request.workspace.repositoryRoot)
              (request.record call.randomUUID call.createdAt)))),
            request.storedIn host call directory store) := by
  unfold acquire
  cases access : call.request.access with
  | read =>
      refine Or.inl ⟨fun request store admitted => ?_, rfl⟩
      rw [admitted.access] at access
      cases access
  | write =>
      cases valid : canonicalRequest host.paths call.safeRealpathSync call.request with
      | error error =>
          refine Or.inl ⟨fun request store admitted => ?_, rfl⟩
          rw [admitted.valid] at valid
          cases valid
      | ok request =>
          dsimp only
          have only : ∀ other store, Admits host directory call other store →
              other = request := by
            intro other store admitted
            have same := admitted.valid
            rw [valid] at same
            exact (Except.ok.inj same).symm
          rcases withFileLock_cases call.files directory
              (acquireLocked host call directory request) with
            ⟨error, failed⟩ | ⟨result, after, locked, done, answered⟩
          · rw [failed]
            refine Or.inl ⟨fun other store admitted => ?_, rfl⟩
            obtain rfl := only other store admitted
            unfold withFileLock at failed
            rw [admitted.lock, acquireLocked_of_admits admitted] at failed
            simp [Except.bind] at failed
          · rw [answered]
            rcases acquireLocked_cases access valid locked done with
              ⟨rfl, refused⟩ | ⟨store, admitted, rfl, rfl⟩
            · refine Or.inl ⟨fun other store admitted => ?_, rfl⟩
              obtain rfl := only other store admitted
              exact refused store admitted
            · exact Or.inr ⟨request, store, admitted, rfl⟩

/-- A released lease removes one record; every other release leaves the files as they were. -/
theorem release_cases (host : Host) (directory : Directory) (files : FileAccess)
    (lease : WorkerWriteReservationLease) :
    ((release host files lease directory).1 ≠ .ok .released ∧
        (release host files lease directory).2 = directory) ∨
      ∃ repositoryRoot store record,
        readLocked host files directory lease.filePath repositoryRoot = .ok store ∧
        store.reservations.find?
          (fun reservation => reservation.reservationId = lease.reservationId) = some record ∧
        holdsLease (trim lease.ownerId) lease record = true ∧
        (release host files lease directory).1 = .ok .released ∧
        let reservations := store.reservations.eraseP fun reservation =>
          reservation.reservationId = lease.reservationId
        (reservations = [] ∧
            (release host files lease directory).2 =
              Function.update directory lease.filePath none) ∨
          (host.bytes (PersistedReservationStore.toJson { store with reservations }) ≤
              MAX_FILE_BYTES ∧
            (release host files lease directory).2 =
              Function.update directory lease.filePath (some { store with reservations })) := by
  unfold release
  dsimp only
  split
  next error _ => exact Or.inl ⟨fun impossible => (nomatch impossible), rfl⟩
  next repositoryRoot ownerId checked =>
    simp only [bind_eq_ok, throwPlainIf_eq_ok, exists_unit, pure_eq_ok, not_not, ne_eq]
      at checked
    obtain ⟨_, -, _, owner, here, same⟩ := checked
    cases same
    obtain ⟨ownerText, -⟩ := localOwnerId_eq_ok.mp owner
    obtain ⟨_, found, rfl, -⟩ := stringField_eq_ok.mp ownerText
    cases found
    rcases withFileLock_cases files directory
        (releaseLocked host files directory (reservationFile host repositoryRoot) repositoryRoot
          (trim lease.ownerId) lease) with
      ⟨error, failed⟩ | ⟨result, after, -, done, answered⟩
    · rw [failed]
      exact Or.inl ⟨fun impossible => (nomatch impossible), rfl⟩
    · rw [answered]
      simp only [releaseLocked, bind_eq_ok] at done
      obtain ⟨store, read, done⟩ := done
      split at done
      next absent =>
        left
        split at done <;> cases done <;> exact ⟨by simp, rfl⟩
      next record found =>
        split at done
        next stale =>
          cases done
          exact Or.inl ⟨by simp, rfl⟩
        next holds =>
          right
          rw [← here] at read
          refine ⟨repositoryRoot, store, record, read, found, by simpa using holds, ?_⟩
          split at done
          next empty =>
            simp only [unlink, bind_eq_ok, exists_unit, pure_eq_ok, Prod.mk.injEq] at done
            obtain ⟨_, ⟨-, rfl⟩, rfl, rfl⟩ := done
            exact ⟨rfl, Or.inl ⟨empty, by rw [here]⟩⟩
          next =>
            simp only [bind_eq_ok, pure_eq_ok, Prod.mk.injEq, writeStore_eq_ok] at done
            obtain ⟨_, ⟨size, -, rfl⟩, rfl, rfl⟩ := done
            exact ⟨rfl, Or.inr ⟨size, by rw [here]⟩⟩

end Steps

end PiAdaptative.WriteReservations
