import Mathlib.Data.List.Infix
import Mathlib.Tactic.Ring

/-!
# Jump tables

A node of a path keeps the nodes at the distances that are powers of two.  A table is filled from
the tables of older nodes, and any distance is climbed along its binary digits.
-/

namespace PiAdaptative.JumpTables

variable {α : Type}

/-- The nodes at the distances 1, 2, 4, … from the start of a path. -/
def Jumps (path table : List α) : Prop := ∀ level, table[level]? = path[2 ^ level]?

/-- Every node of a path from a position on has its table. -/
def TablesFrom (tableOf : α → Option (List α)) (path : List α) (position : Nat) : Prop :=
  ∀ distance node, position ≤ distance → path[distance]? = some node →
    ∃ table, tableOf node = some table ∧ Jumps (path.drop distance) table

/-- The part of a table from a level on, given its node at that level. -/
def fillJumps (tableOf : α → Option (List α)) : Nat → Nat → α → List α
  | 0, _, last => [last]
  | fuel + 1, level, last =>
      match (tableOf last).bind fun table => table[level]? with
      | none => [last]
      | some next => last :: fillJumps tableOf fuel (level + 1) next

/-- Climb a distance by its binary digits, lowest first. -/
def climb (tableOf : α → Option (List α)) (difference level : Nat) (node : α) : Option α :=
  if difference = 0 then some node
  else if difference % 2 = 1 then
    match (tableOf node).bind fun table => table[level]? with
    | none => none
    | some next => climb tableOf (difference / 2) (level + 1) next
  else climb tableOf (difference / 2) (level + 1) node
  termination_by difference
  decreasing_by all_goals omega

variable {tableOf : α → Option (List α)} {path : List α} {position : Nat}

theorem TablesFrom.jump (tables : TablesFrom tableOf path position) {distance : Nat} {node : α}
    (reached : position ≤ distance) (here : path[distance]? = some node) (level : Nat) :
    ((tableOf node).bind fun table => table[level]?) = path[distance + 2 ^ level]? := by
  obtain ⟨table, found, jumps⟩ := tables distance node reached here
  rw [found, Option.bind_some, jumps level, List.getElem?_drop]

/-- A node in front of a path leaves the tables behind it. -/
theorem TablesFrom.cons (tables : TablesFrom tableOf path position) (node : α) :
    TablesFrom tableOf (node :: path) (position + 1) := by
  intro distance older reached here
  cases distance with
  | zero => omega
  | succ distance => exact tables distance older (by omega) here

/-- A filled table holds the nodes at its distances; the fuel covers the path. -/
theorem fillJumps_getElem? (tables : TablesFrom tableOf path 1) {fuel level : Nat} {last : α}
    (here : path[2 ^ level]? = some last) (covered : path.length ≤ 2 ^ (level + 1 + fuel))
    (offset : Nat) :
    (fillJumps tableOf fuel level last)[offset]? = path[2 ^ (level + offset)]? := by
  induction fuel generalizing level last offset with
  | zero =>
      cases offset with
      | zero => simpa [fillJumps] using here.symm
      | succ offset =>
          have far : path.length ≤ 2 ^ (level + (offset + 1)) :=
            covered.trans (Nat.pow_le_pow_right (by omega) (by omega))
          rw [List.getElem?_eq_none far]
          rfl
  | succ fuel ih =>
      have jump := tables.jump (Nat.one_le_two_pow) here level
      rw [← Nat.two_mul, ← Nat.pow_succ'] at jump
      unfold fillJumps
      rw [jump]
      cases next : path[2 ^ (level + 1)]? with
      | none =>
          cases offset with
          | zero => simpa using here.symm
          | succ offset =>
              have far : path.length ≤ 2 ^ (level + (offset + 1)) :=
                (List.getElem?_eq_none_iff.mp next).trans
                  (Nat.pow_le_pow_right (by omega) (by omega))
              rw [List.getElem?_eq_none far]
              rfl
      | some older =>
          cases offset with
          | zero => simpa using here.symm
          | succ offset =>
              have fits : path.length ≤ 2 ^ (level + 1 + 1 + fuel) := by
                rwa [show level + 1 + 1 + fuel = level + 1 + (fuel + 1) by omega]
              have rest := ih next fits offset
              rw [List.getElem?_cons_succ, rest]
              congr 2
              omega

/-- Climbing reaches the node at the distance. -/
theorem climb_eq (tables : TablesFrom tableOf path 0) {difference level distance : Nat} {node : α}
    (here : path[distance]? = some node)
    (inside : distance + difference * 2 ^ level < path.length) :
    climb tableOf difference level node = path[distance + difference * 2 ^ level]? := by
  induction difference using Nat.strong_induction_on generalizing level distance node with
  | _ difference ih =>
      rw [climb]
      by_cases zero : difference = 0
      · rw [if_pos zero, zero, Nat.zero_mul, Nat.add_zero, here]
      rw [if_neg zero]
      have double : difference / 2 * 2 ^ (level + 1) + difference % 2 * 2 ^ level =
          difference * 2 ^ level := by
        calc difference / 2 * 2 ^ (level + 1) + difference % 2 * 2 ^ level
            = (2 * (difference / 2) + difference % 2) * 2 ^ level := by ring
          _ = difference * 2 ^ level := by rw [Nat.div_add_mod]
      split
      · next odd =>
          rw [odd, Nat.one_mul] at double
          rw [tables.jump (Nat.zero_le _) here level]
          have near : distance + 2 ^ level < path.length := by omega
          rw [List.getElem?_eq_getElem near]
          have rest : climb tableOf (difference / 2) (level + 1) path[distance + 2 ^ level] =
              path[distance + 2 ^ level + difference / 2 * 2 ^ (level + 1)]? :=
            ih (difference / 2) (by omega) (List.getElem?_eq_getElem near) (by omega)
          dsimp only
          rw [rest]
          congr 1
          omega
      · next even =>
          rw [Nat.mod_two_ne_one.mp even, Nat.zero_mul, Nat.add_zero] at double
          rw [ih (difference / 2) (by omega) here (by omega), double]

end PiAdaptative.JumpTables
