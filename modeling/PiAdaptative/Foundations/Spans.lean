import Mathlib.Data.List.Sort
import Mathlib.Data.List.Perm.Subperm
import Mathlib.Order.Basic

/-!
# Selection of disjoint spans

Each entry of a list covers a span from its start to its finish.  The greedy selection goes through
the entries by finish and keeps whatever begins after the span kept last.  No selection of disjoint
entries is larger.
-/

namespace PiAdaptative.Spans

variable {α β : Type} [LinearOrder β] (start finish : α → β)

/-- One entry ends before another begins. -/
def Before (first second : α) : Prop := finish first ≤ start second

/-- The spans of two entries have nothing in common. -/
def Apart (first second : α) : Prop :=
  Before start finish first second ∨ Before start finish second first

/-- The entries kept from a list, each of which begins at a bound or the end of the one before. -/
def greedy : β → List α → List α
  | _, [] => []
  | bound, entry :: rest =>
      if start entry < bound then greedy bound rest else entry :: greedy (finish entry) rest

variable {start finish}

theorem Apart.symm {first second : α} (apart : Apart start finish first second) :
    Apart start finish second first :=
  Or.symm apart

theorem greedy_sublist (bound : β) (entries : List α) :
    (greedy start finish bound entries).Sublist entries := by
  induction entries generalizing bound with
  | nil => exact List.Sublist.refl []
  | cons entry rest ih =>
      simp only [greedy]
      split
      · exact (ih bound).cons entry
      · exact (ih (finish entry)).cons_cons entry

variable {entries : List α} {bound : β}

theorem le_start_of_mem_greedy {entry : α}
    (proper : ∀ entry ∈ entries, start entry < finish entry)
    (kept : entry ∈ greedy start finish bound entries) : bound ≤ start entry := by
  induction entries generalizing bound with
  | nil => cases kept
  | cons first rest ih =>
      have properRest := fun entry mem => proper entry (List.mem_cons_of_mem first mem)
      simp only [greedy] at kept
      split at kept
      · exact ih properRest kept
      next begins =>
        rcases List.mem_cons.mp kept with rfl | later
        · exact not_lt.mp begins
        · calc
            bound ≤ start first := not_lt.mp begins
            _ ≤ finish first := (proper first List.mem_cons_self).le
            _ ≤ start entry := ih properRest later

theorem greedy_pairwise (proper : ∀ entry ∈ entries, start entry < finish entry) :
    (greedy start finish bound entries).Pairwise (Before start finish) := by
  induction entries generalizing bound with
  | nil => exact List.Pairwise.nil
  | cons first rest ih =>
      have properRest := fun entry mem => proper entry (List.mem_cons_of_mem first mem)
      simp only [greedy]
      split
      · exact ih properRest
      · exact (ih properRest).cons fun _ later => le_start_of_mem_greedy properRest later

theorem length_le_length_greedy {entries chain : List α}
    (ordered : entries.Pairwise fun first second => finish first ≤ finish second)
    (among : chain.Sublist entries) (disjoint : chain.Pairwise (Before start finish))
    (begins : ∀ entry ∈ chain, bound ≤ start entry) :
    chain.length ≤ (greedy start finish bound entries).length := by
  induction entries generalizing bound chain with
  | nil => simp [List.sublist_nil.mp among]
  | cons first rest ih =>
      obtain ⟨earliest, orderedRest⟩ := List.pairwise_cons.mp ordered
      simp only [greedy]
      split
      next early =>
        cases among with
        | cons _ among => exact ih orderedRest among disjoint begins
        | cons_cons _ among =>
            exact absurd (begins first List.mem_cons_self) (not_le.mpr early)
      next =>
        cases chain with
        | nil => exact Nat.zero_le _
        | cons entry chain =>
            obtain ⟨after, disjointChain⟩ := List.pairwise_cons.mp disjoint
            have least : finish first ≤ finish entry := by
              rcases List.mem_cons.mp (among.subset List.mem_cons_self) with rfl | mem
              · exact le_rfl
              · exact earliest entry mem
            exact Nat.succ_le_succ (ih orderedRest among.of_cons_cons disjointChain
              fun later mem => least.trans (after later mem))

theorem pairwise_before_of_apart (proper : ∀ entry ∈ entries, start entry < finish entry)
    (ordered : entries.Pairwise fun first second => finish first ≤ finish second)
    (disjoint : entries.Pairwise (Apart start finish)) :
    entries.Pairwise (Before start finish) := by
  refine (ordered.and disjoint).imp_of_mem ?_
  rintro first second memFirst memSecond ⟨finishes, before | after⟩
  · exact before
  · have less : finish second < finish first :=
      lt_of_le_of_lt after (proper first memFirst)
    exact absurd finishes (not_le.mpr less)

/-- No disjoint selection is longer than the greedy one, whatever order it is listed in. -/
theorem length_le_length_greedy_of_subperm {entries selection : List α}
    (proper : ∀ entry ∈ entries, start entry < finish entry)
    (begins : ∀ entry ∈ entries, bound ≤ start entry)
    (ordered : entries.Pairwise fun first second => finish first ≤ finish second)
    (among : selection.Subperm entries) (disjoint : selection.Pairwise (Apart start finish)) :
    selection.length ≤ (greedy start finish bound entries).length := by
  obtain ⟨chain, same, sublist⟩ := among
  have apart : chain.Pairwise (Apart start finish) :=
    same.symm.pairwise disjoint fun apart => apart.symm
  have before : chain.Pairwise (Before start finish) :=
    pairwise_before_of_apart (fun entry mem => proper entry (sublist.subset mem))
      (ordered.sublist sublist) apart
  calc
    selection.length = chain.length := same.length_eq.symm
    _ ≤ (greedy start finish bound entries).length :=
      length_le_length_greedy ordered sublist before
        fun entry mem => begins entry (sublist.subset mem)

end PiAdaptative.Spans
