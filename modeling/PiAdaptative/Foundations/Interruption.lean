import PiAdaptative.Foundations.Outcome

/-!
# Operations that may be interrupted

An operation on durable state makes its changes one after another and may be cut off between any
two of them.  Its course lists the states it passes through.  The rules below carry an assertion
about every move on the way and one about the value an operation returns.
-/

namespace PiAdaptative

/-- What an operation does from a state: the states it moves to, and how it ends. -/
inductive Course (σ α : Type) where
  | returned (value : α)
  | threw (error : RuntimeError)
  | moved (state : σ) (rest : Course σ α)

def Operation (σ α : Type) : Type := σ → Course σ α

namespace Course

variable {σ α β : Type}

/-- Go on with another operation where this one returns. -/
def andThen (next : α → Operation σ β) : σ → Course σ α → Course σ β
  | state, returned value => next value state
  | _, threw error => threw error
  | _, moved state rest => moved state (rest.andThen next state)

/-- How an uninterrupted course ends. -/
def result : Course σ α → Outcome α
  | returned value => .ok value
  | threw error => .error error
  | moved _ rest => rest.result

/-- The state in which an uninterrupted course ends. -/
def final : σ → Course σ α → σ
  | state, returned _ => state
  | state, threw _ => state
  | _, moved state rest => rest.final state

/-- Every move on the way is allowed, and a returned value meets its postcondition. -/
def Meets (allowed : σ → σ → Prop) (post : α → σ → Prop) : σ → Course σ α → Prop
  | state, returned value => post value state
  | _, threw _ => True
  | state, moved next rest => allowed state next ∧ rest.Meets allowed post next

variable {course : Course σ α}

theorem Meets.mono {allowed wider : σ → σ → Prop} {post looser : α → σ → Prop} {state : σ}
    (meets : course.Meets allowed post state)
    (more : ∀ before after, allowed before after → wider before after)
    (loose : ∀ value state, post value state → looser value state) :
    course.Meets wider looser state := by
  induction course generalizing state with
  | returned value => exact loose value state meets
  | threw error => trivial
  | moved next rest ih => exact ⟨more state next meets.1, ih meets.2⟩

variable {allowed : σ → σ → Prop}

theorem Meets.andThen {between : α → σ → Prop} {post : β → σ → Prop} {next : α → Operation σ β}
    {state : σ} (meets : course.Meets allowed between state)
    (continues : ∀ value state, between value state → (next value state).Meets allowed post state) :
    (course.andThen next state).Meets allowed post state := by
  induction course generalizing state with
  | returned value => exact continues value state meets
  | threw error => trivial
  | moved next rest ih => exact ⟨meets.1, ih meets.2⟩

/-- The postcondition holds where a course returns. -/
theorem Meets.returned {post : α → σ → Prop} {state : σ} {value : α}
    (meets : course.Meets allowed post state) (returns : course.result = .ok value) :
    post value (course.final state) := by
  induction course generalizing state with
  | returned other =>
      cases returns
      exact meets
  | threw error => cases returns
  | moved next rest ih => exact ih meets.2 returns

theorem result_andThen {next : α → Operation σ β} {state : σ} {value : α}
    (returns : course.result = .ok value) :
    (course.andThen next state).result = (next value (course.final state)).result := by
  induction course generalizing state with
  | returned other =>
      cases returns
      rfl
  | threw error => cases returns
  | moved between rest ih => exact ih returns

/-- A course that meets a false postcondition throws unless it is cut off. -/
theorem Meets.throws {state : σ} (meets : course.Meets allowed (fun _ _ => False) state) :
    ∃ error, course.result = .error error := by
  induction course generalizing state with
  | returned value => exact meets.elim
  | threw error => exact ⟨error, rfl⟩
  | moved next rest ih => exact ih meets.2

end Course

namespace Operation

variable {σ α β : Type}

instance : Monad (Operation σ) where
  pure value := fun _ => .returned value
  bind first next := fun state => (first state).andThen next state

def read : Operation σ σ := fun state => .returned state

def move (change : σ → σ) : Operation σ Unit := fun state =>
  .moved (change state) (.returned ())

def fail (message : String) : Operation σ α := fun _ => .threw (.plain message)

/-- Throw a plain error when the condition holds. -/
def failIf (bad : Prop) [Decidable bad] (message : String) : Operation σ Unit :=
  if bad then fail message else pure ()

/-- Changes made one after another. -/
def moves : List (σ → σ) → Operation σ Unit
  | [] => pure ()
  | change :: changes => do
      move change
      moves changes

/-- An operation throws what a computation throws. -/
def lift (outcome : Outcome α) : Operation σ α := fun _ =>
  match outcome with
  | .ok value => .returned value
  | .error error => .threw error

/-- From every state, an uninterrupted operation returns. -/
def Returns (operation : Operation σ α) : Prop :=
  ∀ state, ∃ value, (operation state).result = .ok value

variable {next : σ → Operation σ α}

variable {first : Operation σ α}

variable {first second : Operation σ α}

namespace Returns

theorem pure (value : α) : Returns (Pure.pure value : Operation σ α) := fun _ => ⟨value, rfl⟩

theorem bind {next : α → Operation σ β} (begins : Returns first)
    (continues : ∀ value, Returns (next value)) : Returns (first >>= next) := by
  intro state
  obtain ⟨between, returned⟩ := begins state
  obtain ⟨value, last⟩ := continues between ((first state).final state)
  exact ⟨value, (Course.result_andThen returned).trans last⟩

theorem read (continues : ∀ state, Returns (next state)) : Returns (Operation.read >>= next) :=
  fun state => continues state state

theorem move (change : σ → σ) : Returns (Operation.move change) := fun _ => ⟨(), rfl⟩

theorem moves (changes : List (σ → σ)) : Returns (Operation.moves changes) := by
  induction changes with
  | nil => exact Returns.pure ()
  | cons change changes ih => exact (Returns.move change).bind fun _ => ih

theorem ite {condition : Prop} [Decidable condition] (accepted : Returns first)
    (refused : Returns second) : Returns (if condition then first else second) := by
  split
  · exact accepted
  · exact refused

end Returns

/-- From the states of `pre`, an operation makes allowed moves only and returns in states of
`post`. -/
def Triple (pre : σ → Prop) (operation : Operation σ α) (allowed : σ → σ → Prop)
    (post : α → σ → Prop) : Prop :=
  ∀ state, pre state → (operation state).Meets allowed post state

variable {pre : σ → Prop} {allowed : σ → σ → Prop} {post : α → σ → Prop}

namespace Triple

theorem pure (value : α) (holds : ∀ state, pre state → post value state) :
    Triple pre (Pure.pure value : Operation σ α) allowed post :=
  holds

theorem bind {next : α → Operation σ β} {between : α → σ → Prop} {post : β → σ → Prop}
    (begins : Triple pre first allowed between)
    (continues : ∀ value, Triple (between value) (next value) allowed post) :
    Triple pre (first >>= next) allowed post :=
  fun state holds => (begins state holds).andThen continues

/-- Two operations one after the other, with the assertion between them. -/
theorem through (between : α → σ → Prop) {next : α → Operation σ β} {post : β → σ → Prop}
    (begins : Triple pre first allowed between)
    (continues : ∀ value, Triple (between value) (next value) allowed post) :
    Triple pre (first >>= next) allowed post :=
  begins.bind continues

theorem read
    (continues : ∀ state, Triple (fun present => present = state ∧ pre state) (next state)
      allowed post) : Triple pre (Operation.read >>= next) allowed post :=
  fun state holds => continues state state ⟨rfl, holds⟩

variable {operation : Operation σ α}

/-- One state at a time. -/
theorem each (from_ : ∀ known, pre known → Triple (· = known) operation allowed post) :
    Triple pre operation allowed post :=
  fun state holds => from_ state holds state rfl

/-- A known state of the precondition. -/
theorem known {state : σ} (triple : Triple pre operation allowed post) (holds : pre state) :
    Triple (· = state) operation allowed post := by
  rintro present rfl
  exact triple present holds

/-- What a triple says of the course from a known state. -/
theorem meets {state : σ} (triple : Triple (· = state) operation allowed post) :
    (operation state).Meets allowed post state :=
  triple state rfl

/-- Where the state is known, it is what is read. -/
theorem readKnown {known : σ} (continues : Triple (· = known) (next known) allowed post) :
    Triple (· = known) (Operation.read >>= next) allowed post := by
  rintro state rfl
  exact continues state rfl

theorem move {change : σ → σ} {post : Unit → σ → Prop}
    (safe : ∀ state, pre state → allowed state (change state))
    (holds : ∀ state, pre state → post () (change state)) :
    Triple pre (Operation.move change) allowed post :=
  fun state before => ⟨safe state before, holds state before⟩

theorem fail (message : String) : Triple pre (Operation.fail message : Operation σ α) allowed
    post :=
  fun _ _ => trivial

theorem lift {outcome : Outcome α}
    (returns : ∀ value, outcome = .ok value → ∀ state, pre state → post value state) :
    Triple pre (Operation.lift outcome) allowed post := by
  intro state holds
  cases outcome with
  | ok value => exact returns value rfl state holds
  | error error => trivial

theorem failIf {bad : Prop} [Decidable bad] {message : String} {post : Unit → σ → Prop}
    (passes : ¬bad → ∀ state, pre state → post () state) :
    Triple pre (Operation.failIf bad message) allowed post := by
  unfold Operation.failIf
  split
  · exact Triple.fail message
  next passed => exact passes passed

theorem moves {changes : List (σ → σ)} (holds : σ → Prop) {post : Unit → σ → Prop}
    (initially : ∀ state, pre state → holds state)
    (kept : ∀ change ∈ changes, ∀ state, holds state →
      allowed state (change state) ∧ holds (change state))
    (finally_ : ∀ state, holds state → post () state) :
    Triple pre (Operation.moves changes) allowed post := by
  induction changes generalizing pre with
  | nil => exact fun state before => finally_ state (initially state before)
  | cons change changes ih =>
      have first : Triple pre (Operation.move change) allowed fun _ => holds := by
        refine Triple.move ?_ ?_
        · exact fun state before =>
            (kept change List.mem_cons_self state (initially state before)).1
        · exact fun state before =>
            (kept change List.mem_cons_self state (initially state before)).2
      refine first.bind fun _ => ih (fun _ held => held) ?_
      exact fun other member => kept other (List.mem_cons_of_mem _ member)

theorem ite {condition : Prop} [Decidable condition]
    (accepted : condition → Triple pre first allowed post)
    (refused : ¬condition → Triple pre second allowed post) :
    Triple pre (if condition then first else second) allowed post := by
  split
  next holds => exact accepted holds
  next fails => exact refused fails

variable {looser : α → σ → Prop}

section

variable (triple : Triple pre operation allowed post)
include triple

theorem mono {stronger : σ → Prop} {wider : σ → σ → Prop}
    (starts : ∀ state, stronger state → pre state)
    (more : ∀ before after, allowed before after → wider before after)
    (loose : ∀ value state, post value state → looser value state) :
    Triple stronger operation wider looser :=
  fun state before => (triple state (starts state before)).mono more loose

/-- A triple from a stronger precondition. -/
theorem starting {stronger : σ → Prop} (starts : ∀ state, stronger state → pre state) :
    Triple stronger operation allowed post :=
  triple.mono starts (fun _ _ => id) fun _ _ => id

/-- A triple with a weaker postcondition. -/
theorem ending (loose : ∀ value state, post value state → looser value state) :
    Triple pre operation allowed looser :=
  triple.mono (fun _ => id) (fun _ _ => id) loose

end

end Triple
end Operation
end PiAdaptative
