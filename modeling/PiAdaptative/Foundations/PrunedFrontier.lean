import Mathlib.Order.Bounds.Basic
import Mathlib.Data.List.Pairwise
import Mathlib.Order.MinMax

/-!
# Pruned frontiers

A log of advances names, for each revision, the position from which on everything changed.  A
frontier keeps only the advances that no later one covers, in the order of their positions.  It
still answers which revision last changed what lies below a position, and what is the first
position that changed after a revision.
-/

namespace PiAdaptative

variable {α β : Type*} [LinearOrder α] [LinearOrder β]

/-- A frontier of the advances made so far. -/
structure IsFrontier (frontier advances : List (α × β)) : Prop where
  /-- The rows are in the order of their positions, and of their revisions. -/
  ordered : frontier.Pairwise fun left right => left.1 < right.1 ∧ left.2 < right.2
  made : ∀ row ∈ frontier, row ∈ advances
  /-- Every advance is covered by a row that is as late and reaches as far back. -/
  covers : ∀ advance ∈ advances, ∃ row ∈ frontier, row.1 ≤ advance.1 ∧ advance.2 ≤ row.2

/-- Add an advance and drop the rows that it covers. -/
def advanceFrontier (frontier : List (α × β)) (cutoff : α) (revision : β) : List (α × β) :=
  frontier.filter (fun row => decide (row.1 < cutoff)) ++ [(cutoff, revision)]

/-- The revision of the last row below a position. -/
def latestBelow (frontier : List (α × β)) (position : α) : Option β :=
  (frontier.filter fun row => decide (row.1 < position)).getLast?.map Prod.snd

/-- The least position of the rows after a revision. -/
def firstAfter (frontier : List (α × β)) (revision : β) : Option α :=
  ((frontier.filter fun row => decide (revision < row.2)).map Prod.fst).min?

namespace IsFrontier

theorem empty : IsFrontier ([] : List (α × β)) [] :=
  ⟨List.Pairwise.nil, by simp, by simp⟩

variable {frontier advances : List (α × β)}

variable {revision : β}

section

variable (held : IsFrontier frontier advances)
include held

/-- A later advance keeps a frontier. -/
theorem advance (cutoff : α) (later : ∀ advance ∈ advances, advance.2 < revision) :
    IsFrontier (advanceFrontier frontier cutoff revision) (advances ++ [(cutoff, revision)]) where
  ordered := by
    refine List.pairwise_append.mpr ⟨held.ordered.filter _, List.pairwise_singleton _ _, ?_⟩
    intro row member last isLast
    obtain rfl := List.mem_singleton.mp isLast
    obtain ⟨present, below⟩ := List.mem_filter.mp member
    exact ⟨by simpa using below, later row (held.made row present)⟩
  made := by
    intro row member
    rcases List.mem_append.mp member with kept | last
    · exact List.mem_append_left _ (held.made row (List.mem_filter.mp kept).1)
    · exact List.mem_append_right _ last
  covers := by
    intro advance member
    rcases List.mem_append.mp member with earlier | last
    · obtain ⟨row, present, back, late⟩ := held.covers advance earlier
      by_cases below : row.1 < cutoff
      · refine ⟨row, List.mem_append_left _ (List.mem_filter.mpr ⟨present, by simpa⟩), back, late⟩
      · exact ⟨(cutoff, revision), List.mem_append_right _ (List.mem_singleton.mpr rfl),
          (not_lt.mp below).trans back, (later advance earlier).le⟩
    · obtain rfl := List.mem_singleton.mp last
      exact ⟨_, List.mem_append_right _ (List.mem_singleton.mpr rfl), le_rfl, le_rfl⟩

/-- The last row below a position has the greatest revision among all advances below it. -/
theorem latestBelow_eq_some {position : α} (found : latestBelow frontier position = some revision) :
    IsGreatest {revision | ∃ cutoff, (cutoff, revision) ∈ advances ∧ cutoff < position}
      revision := by
  obtain ⟨row, last, rfl⟩ := Option.map_eq_some_iff.mp found
  obtain ⟨rows, split⟩ := List.getLast?_eq_some_iff.mp last
  have inside : row ∈ frontier.filter fun row => decide (row.1 < position) := by
    rw [split]
    simp
  obtain ⟨present, below⟩ := List.mem_filter.mp inside
  refine ⟨⟨row.1, held.made row present, by simpa using below⟩, ?_⟩
  rintro other ⟨cutoff, member, under⟩
  obtain ⟨cover, kept, back, late⟩ := held.covers _ member
  have among : cover ∈ rows ++ [row] := by
    rw [← split]
    exact List.mem_filter.mpr ⟨kept, by simpa using back.trans_lt under⟩
  have ordered := held.ordered.filter fun row => decide (row.1 < position)
  rw [split] at ordered
  rcases List.mem_append.mp among with earlier | same
  · exact late.trans ((List.pairwise_append.mp ordered).2.2 cover earlier row (by simp)).2.le
  · obtain rfl := List.mem_singleton.mp same
    exact late

/-- Without a row below a position no advance lies below it. -/
theorem latestBelow_eq_none {position : α} (none : latestBelow frontier position = none) :
    ∀ advance ∈ advances, position ≤ advance.1 := by
  intro advance member
  obtain ⟨row, present, back, -⟩ := held.covers advance member
  simp only [latestBelow, Option.map_eq_none_iff, List.getLast?_eq_none_iff,
    List.filter_eq_nil_iff, decide_eq_true_eq, not_lt] at none
  exact (none row present).trans back

end

end IsFrontier
end PiAdaptative
