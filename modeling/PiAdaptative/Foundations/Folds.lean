import Mathlib.Data.List.Basic

/-!
# Conditions along a fold

A fold takes its elements one after another, and a condition may depend on the state each of them
meets.
-/

namespace PiAdaptative

/-- Every element of a list meets a condition in the state the fold has reached before it. -/
def Allowed {σ ε : Type*} (step : σ → ε → σ) (allowed : σ → ε → Prop) : σ → List ε → Prop
  | _, [] => True
  | state, element :: rest => allowed state element ∧ Allowed step allowed (step state element) rest

namespace Allowed

variable {σ ε : Type*} {step : σ → ε → σ} {allowed : σ → ε → Prop}

/-- An invariant that every allowed step preserves holds after the fold. -/
theorem foldl {holds : σ → Prop} {state : σ} {elements : List ε}
    (met : Allowed step allowed state elements) (initial : holds state)
    (preserved : ∀ {before element}, holds before → element ∈ elements → allowed before element →
      holds (step before element)) : holds (elements.foldl step state) := by
  induction elements generalizing state with
  | nil => exact initial
  | cons element rest ih =>
      obtain ⟨first, later⟩ := met
      refine ih later (preserved initial List.mem_cons_self first) ?_
      intro before other held member fine
      exact preserved held (List.mem_cons_of_mem _ member) fine

instance decidable [∀ state element, Decidable (allowed state element)] (state : σ) :
    ∀ elements : List ε, Decidable (Allowed step allowed state elements)
  | [] => isTrue trivial
  | element :: rest =>
      have := decidable (step state element) rest
      inferInstanceAs (Decidable (_ ∧ Allowed step allowed (step state element) rest))

end Allowed

end PiAdaptative
