import Mathlib.Data.List.Basic

/-!
# Folds that catch up

A fold over a growing list keeps its state and how many elements it has taken.  It catches up with
the list by the elements it has not taken, and then holds what a fold from the start gives.
-/

namespace PiAdaptative

/-- The state of a fold after some elements. -/
structure PrefixFold (σ : Type) where
  count : Nat
  state : σ

namespace PrefixFold

variable {σ ε δ : Type} {step : σ → ε → Except δ σ} {initial : σ} {elements : List ε}
variable {fold : PrefixFold σ}

/-- Take elements until one of them throws. -/
def advance (step : σ → ε → Except δ σ) : List ε → PrefixFold σ → PrefixFold σ × Except δ σ
  | [], fold => (fold, .ok fold.state)
  | element :: rest, fold =>
      match step fold.state element with
      | .ok state => advance step rest { count := fold.count + 1, state }
      | .error error => (fold, .error error)

/-- Take the elements that the fold has not taken. -/
def catchUp (step : σ → ε → Except δ σ) (elements : List ε) (fold : PrefixFold σ) :
    PrefixFold σ × Except δ σ :=
  advance step (elements.drop fold.count) fold

/-- A fold holds the state after its first elements. -/
structure Represents (step : σ → ε → Except δ σ) (initial : σ) (elements : List ε)
    (fold : PrefixFold σ) : Prop where
  within : fold.count ≤ elements.length
  folded : (elements.take fold.count).foldlM step initial = .ok fold.state

theorem represents_start (step : σ → ε → Except δ σ) (initial : σ) (elements : List ε) :
    Represents step initial elements { count := 0, state := initial } :=
  ⟨Nat.zero_le _, rfl⟩

/-- A list that grows leaves the fold of its first elements. -/
theorem Represents.append (represents : Represents step initial elements fold) (more : List ε) :
    Represents step initial (elements ++ more) fold := by
  refine ⟨?_, ?_⟩
  · rw [List.length_append]
    exact Nat.le_add_right_of_le represents.within
  · rw [List.take_append_of_le_length represents.within]
    exact represents.folded

theorem advance_spec {taken rest : List ε} (length : taken.length = fold.count)
    (folded : taken.foldlM step initial = .ok fold.state) :
    Represents step initial (taken ++ rest) (advance step rest fold).1 ∧
      (taken ++ rest).foldlM step initial = (advance step rest fold).2 := by
  induction rest generalizing taken fold with
  | nil =>
      rw [List.append_nil]
      refine ⟨⟨Nat.le_of_eq length.symm, ?_⟩, folded⟩
      rw [advance, ← length, List.take_length]
      exact folded
  | cons element rest ih =>
      cases stepped : step fold.state element with
      | ok state =>
          have next : (taken ++ [element]).foldlM step initial = .ok state := by
            rw [List.foldlM_append, folded]
            show ([element].foldlM step fold.state) = _
            rw [List.foldlM_cons, stepped]
            rfl
          have later := @ih { count := fold.count + 1, state } (taken ++ [element])
            (by rw [List.length_append, length]; rfl) next
          rw [List.append_assoc, List.singleton_append] at later
          rw [advance, stepped]
          exact later
      | error error =>
          rw [advance, stepped]
          refine ⟨⟨?_, ?_⟩, ?_⟩
          · rw [List.length_append, ← length]
            exact Nat.le_add_right _ _
          · rw [← length, List.take_left]
            exact folded
          · rw [List.foldlM_append, folded]
            show (element :: rest).foldlM step fold.state = _
            rw [List.foldlM_cons, stepped]
            rfl

/-- A fold that has caught up gives what a fold from the start gives. -/
theorem catchUp_spec (represents : Represents step initial elements fold) :
    Represents step initial elements (catchUp step elements fold).1 ∧
      (catchUp step elements fold).2 = elements.foldlM step initial := by
  have spec := @advance_spec _ _ _ step initial fold (elements.take fold.count)
    (elements.drop fold.count) (List.length_take_of_le represents.within) represents.folded
  rw [List.take_append_drop] at spec
  exact ⟨spec.1, spec.2.symm⟩

end PrefixFold
end PiAdaptative
