import PiAdaptative.TaskRuntime.VerificationIdentity

/-!
# Subjects of reviews

How many attempts a verifier may be taken to have reviewed.  A verifier identifies its subject
exactly while that number is one.
-/

namespace PiAdaptative.TaskRuntime

variable {tasks : Record TaskRuntimeState} {attempts later : Record AttemptRuntimeState}
variable {verifier : TaskContract} {taskId : String} {attemptIds added : List String}

/-- Whether a verifier settled the attempt. -/
def settledFor (verifierTaskId : String) (attempt : Option AttemptRuntimeState) : Bool :=
  attempt.any fun present =>
    present.verification.any fun verdict => verdict.verifierTaskId = verifierTaskId

/-- Whether the attempt belongs to the task and asks for review. -/
def asksReview (taskId : String) (attempt : Option AttemptRuntimeState) : Bool :=
  attempt.any fun present => present.taskId = taskId && requiresVerification present

/-- The attempts that a verifier may be taken to have reviewed. -/
def reviewSubjects (attempts : Record AttemptRuntimeState) (verifier : TaskContract)
    (taskId : String) (attemptIds : List String) : List AttemptRuntimeState :=
  let settled := settledBy attempts verifier.taskId attemptIds
  if verifier.verificationOfAttemptId = none ∧ settled ≠ [] then settled
  else subjectCandidates attempts taskId verifier.verificationOfAttemptId attemptIds

theorem only?_eq_none {α : Type} {entries : List α} : only? entries = none ↔ entries.length ≠ 1 := by
  match entries with
  | [] => simp [only?]
  | [_] => simp [only?]
  | _ :: _ :: _ => simp [only?]

theorem verificationSubjectAttempt_eq {task : TaskRuntimeState}
    (about : verifier.verificationOfTaskId = some taskId)
    (present : tasks.get? taskId = some task) :
    verificationSubjectAttempt tasks attempts verifier =
      only? (reviewSubjects attempts verifier taskId task.attemptIds) := by
  simp only [verificationSubjectAttempt, about, Option.bind_eq_bind, Option.bind_some, present,
    reviewSubjects]
  split <;> rfl

theorem length_settledBy (verifierTaskId : String) :
    (settledBy attempts verifierTaskId attemptIds).length =
      attemptIds.countP fun id => settledFor verifierTaskId (attempts.get? id) := by
  unfold settledBy
  rw [List.length_filterMap_eq_countP]
  apply List.countP_congr
  intro id _
  cases attempts.get? id <;> simp [settledFor]

theorem length_subjectCandidates (bound : Option String) :
    (subjectCandidates attempts taskId bound attemptIds).length =
      attemptIds.countP fun id => bound.all (· = id) && asksReview taskId (attempts.get? id) := by
  unfold subjectCandidates
  rw [List.length_filterMap_eq_countP]
  apply List.countP_congr
  intro id _
  cases attempts.get? id with
  | none => simp [asksReview]
  | some attempt =>
      by_cases allowed : bound.all (· = id) = true
      · simp [asksReview, allowed]
      · simp [allowed]

/-- Attempts that review nothing new leave the number of subjects. -/
theorem length_reviewSubjects_congr (added : List String)
    (settled : ∀ id ∈ attemptIds,
      settledFor verifier.taskId (later.get? id) = settledFor verifier.taskId (attempts.get? id))
    (asks : ∀ id ∈ attemptIds,
      asksReview taskId (later.get? id) = asksReview taskId (attempts.get? id))
    (idle : ∀ id ∈ added, settledFor verifier.taskId (later.get? id) = false ∧
      asksReview taskId (later.get? id) = false) :
    (reviewSubjects later verifier taskId (attemptIds ++ added)).length =
      (reviewSubjects attempts verifier taskId attemptIds).length := by
  have sameSettled : (settledBy later verifier.taskId (attemptIds ++ added)).length =
      (settledBy attempts verifier.taskId attemptIds).length := by
    have none_added : added.countP (fun id =>
        settledFor verifier.taskId (later.get? id)) = 0 :=
      List.countP_eq_zero.mpr fun id member => by simp [(idle id member).1]
    rw [length_settledBy, length_settledBy, List.countP_append, none_added, Nat.add_zero]
    exact List.countP_congr fun id member => by rw [settled id member]
  have sameCandidates :
      (subjectCandidates later taskId verifier.verificationOfAttemptId
        (attemptIds ++ added)).length =
      (subjectCandidates attempts taskId verifier.verificationOfAttemptId attemptIds).length := by
    have none_added : added.countP (fun id => verifier.verificationOfAttemptId.all (· = id) &&
        asksReview taskId (later.get? id)) = 0 :=
      List.countP_eq_zero.mpr fun id member => by simp [(idle id member).2]
    rw [length_subjectCandidates, length_subjectCandidates, List.countP_append, none_added,
      Nat.add_zero]
    exact List.countP_congr fun id member => by rw [asks id member]
  have sameNil : settledBy later verifier.taskId (attemptIds ++ added) = [] ↔
      settledBy attempts verifier.taskId attemptIds = [] := by
    rw [← List.length_eq_zero_iff, sameSettled, List.length_eq_zero_iff]
  simp only [reviewSubjects, ne_eq, sameNil]
  split
  · exact sameSettled
  · exact sameCandidates

/-- One more candidate identifies a subject only where nothing was settled or asked before. -/
theorem length_reviewSubjects_ne_one {attemptId : String}
    (settled : ∀ id ∈ attemptIds,
      settledFor verifier.taskId (later.get? id) = settledFor verifier.taskId (attempts.get? id))
    (asks : ∀ id ∈ attemptIds, id ≠ attemptId →
      asksReview taskId (later.get? id) = asksReview taskId (attempts.get? id))
    (unasked : asksReview taskId (attempts.get? attemptId) = false)
    (unknown : (reviewSubjects attempts verifier taskId attemptIds).length ≠ 1)
    (barred : asksReview taskId (later.get? attemptId) = true → attemptId ∈ attemptIds →
      verifier.verificationOfAttemptId.all (· = attemptId) = true →
      (verifier.verificationOfAttemptId = none →
        settledBy attempts verifier.taskId attemptIds = []) →
      subjectCandidates attempts taskId verifier.verificationOfAttemptId attemptIds ≠ []) :
    (reviewSubjects later verifier taskId attemptIds).length ≠ 1 := by
  have sameSettled : (settledBy later verifier.taskId attemptIds).length =
      (settledBy attempts verifier.taskId attemptIds).length := by
    rw [length_settledBy, length_settledBy]
    exact List.countP_congr fun id member => by rw [settled id member]
  have sameNil : settledBy later verifier.taskId attemptIds = [] ↔
      settledBy attempts verifier.taskId attemptIds = [] := by
    rw [← List.length_eq_zero_iff, sameSettled, List.length_eq_zero_iff]
  simp only [reviewSubjects, ne_eq, sameNil] at unknown ⊢
  split
  next inferred =>
    rw [if_pos inferred] at unknown
    rwa [sameSettled]
  next open_ =>
    rw [if_neg open_, length_subjectCandidates] at unknown
    rw [length_subjectCandidates]
    by_cases joins : attemptId ∈ attemptIds ∧ asksReview taskId (later.get? attemptId) = true ∧
        verifier.verificationOfAttemptId.all (· = attemptId) = true
    · obtain ⟨member, asked, bound⟩ := joins
      have some_ := barred asked member bound fun free => by
        by_contra settledOne
        exact open_ ⟨free, settledOne⟩
      rw [← List.length_pos_iff, length_subjectCandidates] at some_
      have more : attemptIds.countP (fun id => verifier.verificationOfAttemptId.all (· = id) &&
            asksReview taskId (attempts.get? id)) ≤
          attemptIds.countP (fun id => verifier.verificationOfAttemptId.all (· = id) &&
            asksReview taskId (later.get? id)) := by
        apply List.countP_mono_left
        intro id listed candidate
        by_cases same : id = attemptId
        · subst same
          simp [unasked] at candidate
        · rwa [asks id listed same]
      omega
    · have same : attemptIds.countP (fun id => verifier.verificationOfAttemptId.all (· = id) &&
            asksReview taskId (later.get? id)) =
          attemptIds.countP (fun id => verifier.verificationOfAttemptId.all (· = id) &&
            asksReview taskId (attempts.get? id)) := by
        apply List.countP_congr
        intro id listed
        by_cases same : id = attemptId
        · grind
        · rw [asks id listed same]
      rwa [same]

/-- The first candidate of a verifier that settled nothing is its subject. -/
theorem reviewSubjects_first {attemptId : String} {attempt : AttemptRuntimeState}
    (distinct : attemptIds.Nodup) (listed : attemptId ∈ attemptIds)
    (present : later.get? attemptId = some attempt)
    (asks : asksReview taskId (some attempt) = true)
    (bound : verifier.verificationOfAttemptId.all (· = attemptId) = true)
    (settled : ∀ id ∈ attemptIds,
      settledFor verifier.taskId (later.get? id) = settledFor verifier.taskId (attempts.get? id))
    (others : ∀ id ∈ attemptIds, id ≠ attemptId →
      asksReview taskId (later.get? id) = asksReview taskId (attempts.get? id))
    (unsettled : verifier.verificationOfAttemptId = none →
      settledBy attempts verifier.taskId attemptIds = [])
    (unasked :
      subjectCandidates attempts taskId verifier.verificationOfAttemptId attemptIds = []) :
    reviewSubjects later verifier taskId attemptIds = [attempt] := by
  have free : ¬(verifier.verificationOfAttemptId = none ∧
      settledBy later verifier.taskId attemptIds ≠ []) := by
    rintro ⟨unbound, some_⟩
    apply some_
    rw [← List.length_eq_zero_iff, length_settledBy]
    have none_ := congrArg List.length (unsettled unbound)
    rw [length_settledBy] at none_
    rw [List.countP_congr fun id member => by rw [settled id member]]
    exact none_
  have none_ := congrArg List.length unasked
  rw [length_subjectCandidates, List.length_nil, List.countP_eq_zero] at none_
  have only_ : (subjectCandidates later taskId verifier.verificationOfAttemptId
      attemptIds).length = 1 := by
    rw [length_subjectCandidates, ← List.count_eq_one_of_mem distinct listed, List.count]
    apply List.countP_congr
    intro id member
    by_cases same : id = attemptId
    · subst same
      simp [bound, present, asks]
    · have absent := none_ id member
      rw [← others id member same] at absent
      simp [same, absent]
  have candidate : attempt ∈
      subjectCandidates later taskId verifier.verificationOfAttemptId attemptIds := by
    refine List.mem_filterMap.mpr ⟨attemptId, listed, ?_⟩
    simp only [asksReview, Option.any_some, Bool.and_eq_true, decide_eq_true_eq] at asks
    simp [bound, present, asks]
  rw [reviewSubjects, if_neg free]
  obtain ⟨found, alone⟩ := List.length_eq_one_iff.mp only_
  rw [alone] at candidate
  rw [alone, List.mem_singleton.mp candidate]

end PiAdaptative.TaskRuntime
