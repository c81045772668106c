/-!
# Fallible commands

A computation of the source either returns or throws.  The three error classes keep their message
texts; the lemmas of this file peel a successful computation apart one statement at a time.
-/

namespace PiAdaptative

inductive RuntimeError where
  /-- A `DurableTaskRuntimeError`. -/
  | durable (message : String)
  /-- A `HostEventError` with its stable code. -/
  | hostEvent (code message : String)
  /-- A plain `Error` or `TypeError`. -/
  | plain (message : String)
  deriving DecidableEq, Repr

/-- A returned value or a thrown error. -/
abbrev Outcome (α : Type) := Except RuntimeError α

/-- The texts joined with a comma and a space, as `join(", ")`. -/
def joined (texts : List String) : String := ", ".intercalate texts

/-- The text a message shows for a value that is present where the message is thrown. -/
def shown (text : Option String) : String := text.getD ""

/-- Throw a durable runtime error when the condition holds. -/
def throwIf (bad : Prop) [Decidable bad] (message : String) : Outcome Unit :=
  if bad then .error (.durable message) else .ok ()

/-- Throw a plain error when the condition holds. -/
def throwPlainIf (bad : Prop) [Decidable bad] (message : String) : Outcome Unit :=
  if bad then .error (.plain message) else .ok ()

/-- Throw a host event error when the condition holds. -/
def throwHostIf (bad : Prop) [Decidable bad] (code message : String) : Outcome Unit :=
  if bad then .error (.hostEvent code message) else .ok ()

/-- The value, or a durable runtime error where it is `undefined`. -/
def orThrow {α : Type} (value : Option α) (message : String) : Outcome α :=
  match value with
  | some present => .ok present
  | none => .error (.durable message)

/-- The value, or a host event error where it is `undefined`. -/
def orThrowHost {α : Type} (value : Option α) (code message : String) : Outcome α :=
  match value with
  | some present => .ok present
  | none => .error (.hostEvent code message)

def RuntimeError.message : RuntimeError → String
  | .durable message => message
  | .hostEvent _ message => message
  | .plain message => message

/-- `try { … } catch (error) { throw new DurableTaskRuntimeError(describe(error.message)) }`. -/
def rethrowDurable {α : Type} (body : Outcome α) (describe : String → String) : Outcome α :=
  match body with
  | .ok value => .ok value
  | .error error => .error (.durable (describe error.message))

variable {message : String} {value : Unit} {bad : Prop}

@[simp]
theorem throwIf_eq_ok [Decidable bad] : throwIf bad message = .ok value ↔ ¬bad := by
  by_cases refused : bad <;> simp [throwIf, refused]

@[simp]
theorem throwPlainIf_eq_ok [Decidable bad] : throwPlainIf bad message = .ok value ↔ ¬bad := by
  by_cases refused : bad <;> simp [throwPlainIf, refused]

@[simp]
theorem throwHostIf_eq_ok [Decidable bad] {code message : String} :
    throwHostIf bad code message = .ok value ↔ ¬bad := by
  by_cases refused : bad <;> simp [throwHostIf, refused]

@[simp]
theorem orThrow_eq_ok {α : Type} {value : Option α} {result : α} :
    orThrow value message = .ok result ↔ value = some result := by
  cases value <;> simp [orThrow]

@[simp]
theorem orThrowHost_eq_ok {α : Type} {value : Option α} {code message : String} {result : α} :
    orThrowHost value code message = .ok result ↔ value = some result := by
  cases value <;> simp [orThrowHost]

variable {α β : Type} {result : β}

/-- A sequence of two statements returns exactly when both do. -/
@[simp]
theorem bind_eq_ok {first : Outcome α} {next : α → Outcome β} :
    (first >>= next) = .ok result ↔ ∃ value, first = .ok value ∧ next value = .ok result := by
  cases first with
  | error error => simp [Bind.bind, Except.bind]
  | ok value => simp [Bind.bind, Except.bind]

@[simp]
theorem pure_eq_ok {α : Type} {value result : α} :
    (pure value : Outcome α) = .ok result ↔ value = result := by
  simp [pure, Except.pure]

@[simp]
theorem toOption_eq_some {α : Type} {result : Outcome α} {value : α} :
    result.toOption = some value ↔ result = .ok value := by
  cases result <;> simp [Except.toOption]

/-- A statement returns nothing but `undefined`. -/
@[simp]
theorem exists_unit {holds : Unit → Prop} : (∃ value, holds value) ↔ holds () :=
  ⟨fun ⟨(), held⟩ => held, fun held => ⟨(), held⟩⟩

/-- `values.map(body)`, stopping at the first error. -/
def mapOutcome {α β : Type} (body : α → Outcome β) : List α → Outcome (List β)
  | [] => .ok []
  | value :: values => do
      let result ← body value
      let results ← mapOutcome body values
      return result :: results

variable {values : List α}

/-- Elementwise reading of values written elementwise. -/
theorem mapOutcome_map {read : β → Outcome α} {write : α → β} :
    mapOutcome read (values.map write) = .ok values ↔
      ∀ value ∈ values, read (write value) = .ok value := by
  induction values with
  | nil => simp [mapOutcome]
  | cons value values ih =>
      simp only [List.map_cons, mapOutcome, bind_eq_ok, pure_eq_ok, List.cons.injEq,
        List.forall_mem_cons, ← ih]
      constructor
      · rintro ⟨_, first, _, later, rfl, rfl⟩
        exact ⟨first, later⟩
      · rintro ⟨first, later⟩
        exact ⟨value, first, values, later, rfl, rfl⟩

variable {results : List β} {body : α → Outcome β}

section

variable (mapped : mapOutcome body values = .ok results)
include mapped

theorem length_mapOutcome : results.length = values.length := by
  induction values generalizing results with
  | nil =>
      cases mapped
      rfl
  | cons value values ih =>
      simp only [mapOutcome, bind_eq_ok, pure_eq_ok] at mapped
      obtain ⟨result, -, rest, later, rfl⟩ := mapped
      simp [ih later]

theorem mem_mapOutcome {value : α} (member : value ∈ values) :
    ∃ result ∈ results, body value = .ok result := by
  induction values generalizing results with
  | nil => cases member
  | cons head values ih =>
      simp only [mapOutcome, bind_eq_ok, pure_eq_ok] at mapped
      obtain ⟨result, first, rest, later, rfl⟩ := mapped
      rcases List.mem_cons.mp member with rfl | further
      · exact ⟨result, List.mem_cons_self, first⟩
      · obtain ⟨found, known, same⟩ := ih later further
        exact ⟨found, List.mem_cons_of_mem _ known, same⟩

theorem mapOutcome_mem (member : result ∈ results) : ∃ value ∈ values, body value = .ok result := by
  induction values generalizing results with
  | nil =>
      cases mapped
      cases member
  | cons head values ih =>
      simp only [mapOutcome, bind_eq_ok, pure_eq_ok] at mapped
      obtain ⟨found, first, rest, later, rfl⟩ := mapped
      rcases List.mem_cons.mp member with rfl | further
      · exact ⟨head, List.mem_cons_self, first⟩
      · obtain ⟨value, known, same⟩ := ih later further
        exact ⟨value, List.mem_cons_of_mem _ known, same⟩

end

/-- An invariant that every step of a fold preserves holds after the fold. -/
theorem foldlM_preserves {σ ε : Type} {step : σ → ε → Outcome σ} (holds : σ → Prop)
    {elements : List ε} {start result : σ} (folded : elements.foldlM step start = .ok result)
    (initial : holds start)
    (kept : ∀ {before element after}, holds before → step before element = .ok after →
      holds after) : holds result := by
  induction elements generalizing start with
  | nil =>
      rw [List.foldlM_nil, pure_eq_ok] at folded
      exact folded ▸ initial
  | cons element rest ih =>
      rw [List.foldlM_cons, bind_eq_ok] at folded
      obtain ⟨middle, first, later⟩ := folded
      exact ih later (kept initial first)

/-- `values.map((value, index) => body(value, index))`, stopping at the first error. -/
def mapOutcomeFrom {α β : Type} (body : Nat → α → Outcome β) (index : Nat) :
    List α → Outcome (List β)
  | [] => .ok []
  | value :: values => do
      let result ← body index value
      let results ← mapOutcomeFrom body (index + 1) values
      return result :: results

/-- Every result comes from a value at its index. -/
theorem mapOutcomeFrom_mem {body : Nat → α → Outcome β} {start : Nat}
    (mapped : mapOutcomeFrom body start values = .ok results) (member : result ∈ results) :
    ∃ index value, values[index]? = some value ∧ body (start + index) value = .ok result := by
  induction values generalizing start results with
  | nil =>
      cases mapped
      cases member
  | cons first rest ih =>
      simp only [mapOutcomeFrom, bind_eq_ok, pure_eq_ok] at mapped
      obtain ⟨head, read, tail, later, rfl⟩ := mapped
      rcases List.mem_cons.mp member with rfl | inTail
      · exact ⟨0, first, rfl, read⟩
      · obtain ⟨index, value, there, readThere⟩ := ih later inTail
        exact ⟨index + 1, value, there, by rwa [Nat.add_comm index, ← Nat.add_assoc]⟩

/-- Every value has a result. -/
theorem mem_mapOutcomeFrom {body : Nat → α → Outcome β} {start index : Nat}
    (mapped : mapOutcomeFrom body start values = .ok results) {value : α}
    (there : values[index]? = some value) :
    ∃ result ∈ results, body (start + index) value = .ok result := by
  induction values generalizing start index results with
  | nil => simp at there
  | cons first rest ih =>
      simp only [mapOutcomeFrom, bind_eq_ok, pure_eq_ok] at mapped
      obtain ⟨head, read, tail, later, rfl⟩ := mapped
      cases index with
      | zero =>
          obtain rfl := Option.some.inj there
          exact ⟨head, by simp, read⟩
      | succ index =>
          obtain ⟨result, member, readThere⟩ := ih later there
          refine ⟨result, List.mem_cons_of_mem _ member, ?_⟩
          rwa [Nat.add_comm index, ← Nat.add_assoc]

/-- The decoded value of a property that may be missing. -/
def optionalOutcome {α β : Type} (value : Option α) (body : Option α → Outcome β) :
    Outcome (Option β) :=
  match value with
  | none => .ok none
  | some present => do
      let result ← body (some present)
      return some result

end PiAdaptative
