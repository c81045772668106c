import Mathlib.Data.List.Induction
import Mathlib.Logic.Function.Basic

/-!
# Folds that resume

A fold keeps its state between calls and takes only what a list appends to the one it took last.
A step that throws leaves the state it has changed behind, beside the list of an earlier call.
-/

namespace PiAdaptative.Kernel

variable {ι σ ε : Type}

/-- The two functions of a fold.  A step changes the state in place, also where it throws. -/
structure Stepper (ι σ ε : Type) where
  create : σ
  step : σ → ι → Nat → σ × Option ε

namespace Stepper

/-- Step through items from an index on, until a step throws. -/
def run (stepper : Stepper ι σ ε) : List ι → Nat → σ → σ × Option ε
  | [], _, state => (state, none)
  | item :: items, index, state =>
      match stepper.step state item index with
      | (state, none) => stepper.run items (index + 1) state
      | (state, some error) => (state, some error)

/-- The left fold over a whole list from a fresh state. -/
def replay (stepper : Stepper ι σ ε) (items : List ι) : σ × Option ε :=
  stepper.run items 0 stepper.create

theorem run_append (stepper : Stepper ι σ ε) {taken : List ι} (rest : List ι) {index : Nat}
    {state after : σ} (ran : stepper.run taken index state = (after, none)) :
    stepper.run (taken ++ rest) index state =
      stepper.run rest (index + taken.length) after := by
  induction taken generalizing index state with
  | nil =>
      cases ran
      rfl
  | cons item taken ih =>
      rw [List.cons_append, run]
      rw [run] at ran
      split at ran
      next next stepped =>
        rw [ih ran, List.length_cons, Nat.add_right_comm, Nat.add_assoc]
      next => cases ran

end Stepper

/-- A fold that resumes past the items it has processed. -/
structure PrefixFold (ι σ : Type) where
  processed : List ι
  state : σ

namespace PrefixFold

def new (stepper : Stepper ι σ ε) : PrefixFold ι σ :=
  { processed := [], state := stepper.create }

variable [DecidableEq ι] {stepper : Stepper ι σ ε} {resumed : PrefixFold ι σ} {items : List ι}
variable {state : σ} {calls earlier : List (List ι)}

/-- The index `from` where the loop starts, or none where the fold starts over. -/
def resumePoint (fold : PrefixFold ι σ) (items : List ι) : Option Nat :=
  if fold.processed.length > items.length then none
  else if fold.processed.isPrefixOf items then some fold.processed.length
  else none

/-- Fold items, resuming past the identical prefix. -/
def fold (stepper : Stepper ι σ ε) (fold : PrefixFold ι σ) (items : List ι) :
    PrefixFold ι σ × Except ε σ :=
  let (start, first) :=
    match fold.resumePoint items with
    | some first => (fold.state, first)
    | none => (stepper.create, 0)
  match stepper.run (items.drop first) first start with
  | (state, none) => ({ processed := items, state }, .ok state)
  | (state, some error) => ({ fold with state }, .error error)

/-- The state is what the processed items fold to. -/
def Sound (stepper : Stepper ι σ ε) (fold : PrefixFold ι σ) : Prop :=
  stepper.replay fold.processed = (fold.state, none)

omit [DecidableEq ι] in
theorem sound_new : Sound stepper (new stepper) := rfl

theorem resumePoint_eq_some {first : Nat} (found : resumed.resumePoint items = some first) :
    first = resumed.processed.length ∧ ∃ rest, items = resumed.processed ++ rest := by
  unfold resumePoint at found
  split at found
  next => cases found
  next =>
    split at found
    next identical =>
      obtain ⟨rest, same⟩ := List.isPrefixOf_iff_prefix.mp identical
      exact ⟨(Option.some.inj found).symm, rest, same.symm⟩
    next => cases found

/-- A call that returns gives the left fold over its list, where it starts over or from a sound
state. -/
theorem fold_spec (resumes : resumed.resumePoint items ≠ none → Sound stepper resumed)
    (returned : (resumed.fold stepper items).2 = .ok state) :
    stepper.replay items = (state, none) ∧ Sound stepper (resumed.fold stepper items).1 := by
  unfold PrefixFold.fold at returned ⊢
  cases found : resumed.resumePoint items with
  | none =>
      rw [found] at returned
      dsimp only [List.drop_zero] at returned ⊢
      split at returned
      next state ran =>
        cases returned
        exact ⟨ran, ran⟩
      next => cases returned
  | some first =>
      rw [found] at returned
      obtain ⟨rfl, rest, rfl⟩ := resumePoint_eq_some found
      dsimp only at returned ⊢
      rw [List.drop_left] at returned ⊢
      have whole := stepper.run_append rest (resumes (by simp [found]))
      rw [Nat.zero_add] at whole
      split at returned
      next state ran =>
        cases returned
        exact ⟨whole.trans ran, whole.trans ran⟩
      next => cases returned

/-- The fold after calls, whether they returned or threw. -/
def after (stepper : Stepper ι σ ε) (calls : List (List ι)) : PrefixFold ι σ :=
  calls.foldl (fun fold items => (fold.fold stepper items).1) (new stepper)

theorem after_concat : after stepper (earlier ++ [items]) =
    ((after stepper earlier).fold stepper items).1 := by
  rw [after, List.foldl_append]
  rfl

/-- Every call that returns gives the left fold over its list. -/
def Replays (stepper : Stepper ι σ ε) (calls : List (List ι)) : Prop :=
  ∀ earlier items, earlier ++ [items] <+: calls → ∀ state,
    ((after stepper earlier).fold stepper items).2 = .ok state →
      stepper.replay items = (state, none)

/-- A call right after one that threw starts over, unless the throw left the state at what the
processed items fold to. -/
def RestartsAfterThrow (stepper : Stepper ι σ ε) (calls : List (List ι)) : Prop :=
  ∀ earlier failed items, earlier ++ [failed] ++ [items] <+: calls → ∀ error,
    ((after stepper earlier).fold stepper failed).2 = .error error →
      (after stepper (earlier ++ [failed])).resumePoint items = none ∨
        Sound stepper (after stepper (earlier ++ [failed]))

/-- A fold is sound after every call that returned. -/
theorem RestartsAfterThrow.sound (restarts : RestartsAfterThrow stepper calls)
    (begins : earlier <+: calls) :
    Sound stepper (after stepper earlier) ∨ ∃ before failed error,
      earlier = before ++ [failed] ∧
        ((after stepper before).fold stepper failed).2 = .error error := by
  induction earlier using List.reverseRecOn with
  | nil => exact .inl sound_new
  | append_singleton earlier items ih =>
      cases returned : ((after stepper earlier).fold stepper items).2 with
      | error error => exact .inr ⟨earlier, items, error, rfl, returned⟩
      | ok state =>
          refine .inl ?_
          rw [after_concat]
          refine (fold_spec (fun resumes => ?_) returned).2
          rcases ih ((List.prefix_append _ _).trans begins) with
            sound | ⟨before, failed, error, rfl, threw⟩
          · exact sound
          · exact (restarts before failed items begins error threw).resolve_left resumes

theorem RestartsAfterThrow.replays (restarts : RestartsAfterThrow stepper calls) :
    Replays stepper calls := by
  intro earlier items begins state returned
  refine (fold_spec (fun resumes => ?_) returned).1
  rcases restarts.sound ((List.prefix_append _ _).trans begins) with
    sound | ⟨before, failed, error, rfl, threw⟩
  · exact sound
  · exact (restarts before failed items begins error threw).resolve_left resumes

end PrefixFold

/-- The folds of the lineages met so far, by their first item. -/
structure PrefixFoldByFirstItem (ι σ : Type) where
  folds : ι → Option (PrefixFold ι σ)

namespace PrefixFoldByFirstItem

variable [DecidableEq ι] {stepper : Stepper ι σ ε} {items : List ι} {calls : List (List ι)}

def fold (stepper : Stepper ι σ ε) (folds : PrefixFoldByFirstItem ι σ) :
    List ι → PrefixFoldByFirstItem ι σ × Except ε σ
  | [] => (folds, .ok stepper.create)
  | first :: rest =>
      let fold := (folds.folds first).getD (PrefixFold.new stepper)
      let (fold, result) := fold.fold stepper (first :: rest)
      ({ folds := Function.update folds.folds first (some fold) }, result)

def after (stepper : Stepper ι σ ε) (calls : List (List ι)) : PrefixFoldByFirstItem ι σ :=
  calls.foldl (fun folds items => (folds.fold stepper items).1) { folds := fun _ => none }

/-- The calls whose list starts with an item. -/
def lineage (first : ι) (calls : List (List ι)) : List (List ι) :=
  calls.filter fun items => items.head? = some first

theorem after_concat : after stepper (calls ++ [items]) =
    ((after stepper calls).fold stepper items).1 := by
  rw [after, List.foldl_append]
  rfl

/-- The fold of an item is one that took the calls of its lineage. -/
theorem folds_after (first : ι) :
    ((after stepper calls).folds first).getD (PrefixFold.new stepper) =
      PrefixFold.after stepper (lineage first calls) := by
  induction calls using List.reverseRecOn with
  | nil => rfl
  | append_singleton earlier items ih =>
      have split : lineage first (earlier ++ [items]) =
          lineage first earlier ++ lineage first [items] := List.filter_append ..
      rw [after_concat, split]
      cases items with
      | nil => simpa [fold, lineage] using ih
      | cons head rest =>
          by_cases same : head = first
          · subst same
            have own : lineage head [head :: rest] = [head :: rest] := by simp [lineage]
            rw [own, PrefixFold.after_concat, ← ih]
            simp [fold]
          · have other : lineage first [head :: rest] = [] := by simp [lineage, same]
            rw [other, List.append_nil, ← ih]
            simp [fold, Function.update_of_ne (Ne.symm same)]

/-- Every call that returns gives the left fold over its list. -/
def Replays (stepper : Stepper ι σ ε) (calls : List (List ι)) : Prop :=
  ∀ earlier items, earlier ++ [items] <+: calls → ∀ state,
    ((after stepper earlier).fold stepper items).2 = .ok state →
      stepper.replay items = (state, none)

theorem replays_of_lineages
    (replays : ∀ first, PrefixFold.Replays stepper (lineage first calls)) :
    Replays stepper calls := by
  intro earlier items begins state returned
  cases items with
  | nil =>
      cases returned
      rfl
  | cons first rest =>
      refine replays first (lineage first earlier) (first :: rest) ?_ state ?_
      · obtain ⟨later, rfl⟩ := begins
        exact ⟨lineage first later, by simp [lineage]⟩
      · rw [← folds_after]
        exact returned

end PrefixFoldByFirstItem

/-- In every run of calls in which the call after a throw starts over, or finds the state as the
processed items left it, each call that returns gives the left fold over its list. -/
theorem resumed_folds_replay [DecidableEq ι] (stepper : Stepper ι σ ε) (calls : List (List ι)) :
    (PrefixFold.RestartsAfterThrow stepper calls → PrefixFold.Replays stepper calls) ∧
      ((∀ first, PrefixFold.RestartsAfterThrow stepper
          (PrefixFoldByFirstItem.lineage first calls)) →
        PrefixFoldByFirstItem.Replays stepper calls) :=
  ⟨fun restarts => restarts.replays, fun restarts =>
    PrefixFoldByFirstItem.replays_of_lineages fun first => (restarts first).replays⟩

/-- Keep the items, and throw at a zero. -/
def collecting : Stepper Nat (List Nat) String where
  create := []
  step state item _ := (state ++ [item], if item = 0 then some "zero" else none)

/-- A throw followed by a call that starts over leaves the later answers right. -/
theorem resumed_folds_replay_restarting :
    PrefixFold.Replays collecting [[1], [1, 0], [2]] ∧
      PrefixFoldByFirstItem.Replays collecting [[1], [1, 0], [2]] := by
  refine ⟨(resumed_folds_replay collecting _).1 ?_, (resumed_folds_replay collecting _).2 ?_⟩
  · rintro (_ | ⟨first, _ | ⟨second, more⟩⟩) failed items ⟨later, whole⟩ error threw
    · cases whole
      cases threw
    · cases whole
      exact .inl rfl
    · have short := congrArg List.length whole
      simp at short
      omega
  · rintro first (_ | ⟨before, earlier⟩) failed items ⟨later, whole⟩ error threw
    · by_cases one : first = 1
      · subst one
        cases whole
        cases threw
      · have short := congrArg List.length whole
        simp [PrefixFoldByFirstItem.lineage, Ne.symm one, List.filter_cons] at short
        split at short <;> simp at short
    · have short := congrArg List.length whole
      by_cases one : first = 1 <;> by_cases two : first = 2 <;>
        simp [PrefixFoldByFirstItem.lineage, one, two, eq_comm] at short <;> omega

/-- The list of a call that threw stays in the state under the list before it. -/
theorem interrupted_fold_is_resumed :
    ¬PrefixFold.Replays collecting [[1], [1, 2, 0], [1, 2]] ∧
      ¬PrefixFoldByFirstItem.Replays collecting [[1], [1, 2, 0], [1, 2]] := by
  constructor
  · intro replays
    exact absurd (replays [[1], [1, 2, 0]] [1, 2] ⟨[], rfl⟩ [1, 2, 0, 2] rfl) (by decide)
  · intro replays
    exact absurd (replays [[1], [1, 2, 0]] [1, 2] ⟨[], rfl⟩ [1, 2, 0, 2] rfl) (by decide)

end PiAdaptative.Kernel
