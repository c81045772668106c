import Mathlib.Order.Basic

/-!
# Bisection

A search halves a window of indices until it is empty.  Where the condition, once it holds, goes on
holding, what is left is the first index at which it holds, however the probes are chosen.
-/

namespace PiAdaptative.Bisection

/-- The bound that a search leaves when it probes inside a window of indices. -/
def bisect (probe : Nat → Nat → Nat) (holds : Nat → Bool) : Nat → Nat → Nat → Nat
  | 0, _, high => high
  | fuel + 1, low, high =>
      if low < high then
        if holds (probe low high) then bisect probe holds fuel low (probe low high)
        else bisect probe holds fuel (probe low high + 1) high
      else high

/-- A probe stays inside its window. -/
def Inside (probe : Nat → Nat → Nat) : Prop :=
  ∀ low high, low < high → low ≤ probe low high ∧ probe low high < high

theorem inside_half : Inside fun low high => (low + high) / 2 := by
  intro low high less
  dsimp only
  omega

theorem inside_lower_half : Inside fun low high => (low + high - 1) / 2 := by
  intro low high less
  dsimp only
  omega

variable {probe : Nat → Nat → Nat} (holds : Nat → Bool)

theorem bisect_le (inside : Inside probe) (fuel low high : Nat) :
    bisect probe holds fuel low high ≤ high := by
  induction fuel generalizing low high with
  | zero => exact Nat.le_refl high
  | succ fuel ih =>
      unfold bisect
      by_cases less : low < high
      · have within := inside low high less
        rw [if_pos less]
        split
        · exact Nat.le_trans (ih low (probe low high)) (Nat.le_of_lt within.2)
        · exact ih (probe low high + 1) high
      · simp only [if_neg less, Nat.le_refl]

/-- A search with enough fuel finds the first index of its window at which a lasting condition
holds, or the end of the window. -/
theorem bisect_first (inside : Inside probe) (fuel low high : Nat)
    (lasting : ∀ first second, first ≤ second → second < high → holds first → holds second)
    (enough : high - low ≤ fuel) (ordered : low ≤ high) :
    (∀ index, low ≤ index → index < bisect probe holds fuel low high → holds index = false) ∧
      (bisect probe holds fuel low high < high →
        holds (bisect probe holds fuel low high) = true) := by
  induction fuel generalizing low high with
  | zero =>
      unfold bisect
      exact ⟨fun index _ _ => by omega, fun impossible => absurd impossible (Nat.lt_irrefl high)⟩
  | succ fuel ih =>
      unfold bisect
      by_cases less : low < high
      · obtain ⟨above, below⟩ := inside low high less
        rw [if_pos less]
        by_cases found : holds (probe low high) = true
        · rw [if_pos found]
          obtain ⟨before, atBound⟩ :=
            ih low (probe low high) (fun first second le lt => lasting first second le (by omega))
              (by omega) above
          refine ⟨before, fun _ => ?_⟩
          by_cases inner : bisect probe holds fuel low (probe low high) < probe low high
          · exact atBound inner
          · have bound := bisect_le holds inside fuel low (probe low high)
            rwa [show bisect probe holds fuel low (probe low high) = probe low high by omega]
        · rw [if_neg found]
          obtain ⟨before, atBound⟩ :=
            ih (probe low high + 1) high lasting (by omega) below
          refine ⟨fun index least inWindow => ?_, atBound⟩
          by_cases later : probe low high + 1 ≤ index
          · exact before index later inWindow
          · by_contra holdsThere
            rw [Bool.not_eq_false] at holdsThere
            exact found (lasting index _ (by omega) below holdsThere)
      · rw [if_neg less]
        exact ⟨fun index _ _ => by omega, fun impossible => absurd impossible (Nat.lt_irrefl high)⟩

end PiAdaptative.Bisection
