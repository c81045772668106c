import Mathlib.Data.List.Induction
import Mathlib.Logic.Relation

/-!
# Executions of a labelled step relation

`Execution step source history target` is a finite run of labelled steps.  Its history keeps, for
every step, the state before it and its label, so a quantity that depends on what happened can be
read off the history.  Invariants are proved once along an execution, with the history in scope.
-/

namespace PiAdaptative

/-- A property that every step keeps holds at the end of a path. -/
theorem holds_of_path {σ : Type*} {step : σ → σ → Prop} {source target : σ} (holds : σ → Prop)
    (path : Relation.ReflTransGen step source target)
    (kept : ∀ {before after}, step before after → holds before → holds after)
    (held : holds source) : holds target := by
  induction path with
  | refl => exact held
  | tail _ taken ih => exact kept taken ih

/-- A finite run of labelled steps with the state before each of them. -/
inductive Execution {σ ε : Type*} (step : σ → ε → σ → Prop) : σ → List (σ × ε) → σ → Prop
  | start (state : σ) : Execution step state [] state
  | extend {source before after : σ} {history : List (σ × ε)} {label : ε} :
      Execution step source history before →
      step before label after →
      Execution step source (history ++ [(before, label)]) after

namespace Execution

variable {σ ε : Type*} {step : σ → ε → σ → Prop}

variable {source target : σ}

/-- An execution of one step. -/
theorem single {label : ε} (taken : step source label target) :
    Execution step source [(source, label)] target :=
  .extend (.start source) taken

variable {next : σ → ε → Option σ}

/-- A partial function that takes a list of labels one after the other makes an execution. -/
theorem of_foldlM {labels : List ε} (found : labels.foldlM next source = some target) :
    ∃ history, Execution (fun before label after => next before label = some after) source
        history target ∧ history.map Prod.snd = labels := by
  induction labels using List.reverseRecOn generalizing target with
  | nil =>
      cases found
      exact ⟨[], .start source, rfl⟩
  | append_singleton labels label ih =>
      rw [List.foldlM_append, Option.bind_eq_bind, Option.bind_eq_some_iff] at found
      obtain ⟨before, earlier, last⟩ := found
      rw [List.foldlM_cons, Option.bind_eq_bind, Option.bind_eq_some_iff] at last
      obtain ⟨after, taken, rest⟩ := last
      cases rest
      obtain ⟨history, run, same⟩ := ih earlier
      exact ⟨history ++ [(before, label)], .extend run taken, by simp [same]⟩

/-- The steps of a list of labels, with the state before each of them. -/
def trace (next : σ → ε → Option σ) : σ → List ε → Option (List (σ × ε) × σ)
  | state, [] => some ([], state)
  | state, label :: labels =>
      (next state label).bind fun after =>
        (trace next after labels).map fun (history, target) => ((state, label) :: history, target)

variable {earlier later : List (σ × ε)}

/-- Concatenate executions and their histories. -/
theorem trans {source middle target : σ} (first : Execution step source earlier middle)
    (second : Execution step middle later target) :
    Execution step source (earlier ++ later) target := by
  induction second with
  | start => simpa using first
  | extend _ taken ih => simpa [List.append_assoc] using Execution.extend ih taken

variable {history : List (σ × ε)}

/-- The steps of a trace make an execution. -/
theorem of_trace {labels : List ε} (found : trace next source labels = some (history, target)) :
    Execution (fun before label after => next before label = some after) source history target := by
  induction labels generalizing source history with
  | nil =>
      cases found
      exact .start _
  | cons label labels ih =>
      simp only [trace, Option.bind_eq_some_iff, Option.map_eq_some_iff] at found
      obtain ⟨after, taken, ⟨later, final⟩, rest, same⟩ := found
      cases same
      exact (single taken).trans (ih rest)

/-- An invariant of states and histories that holds at the start holds at the end. -/
theorem invariant
    (holds : List (σ × ε) → σ → Prop) (initial : holds [] source)
    (preserved : ∀ {history before label after}, Execution step source history before →
      holds history before → step before label after → holds (history ++ [(before, label)]) after)
    (run : Execution step source history target) : holds history target := by
  induction run with
  | start => exact initial
  | extend earlier taken ih => exact preserved earlier ih taken

/-- A property of states that every step preserves holds at the end. -/
theorem preserves (holds : σ → Prop) (initial : holds source)
    (preserved : ∀ {before label after}, holds before → step before label after → holds after)
    (run : Execution step source history target) : holds target :=
  run.invariant (fun _ => holds) initial fun _ held taken => preserved held taken

/-- Enlarge the step relation without changing an execution. -/
theorem mono {larger : σ → ε → σ → Prop}
    (embed : ∀ {before label after}, step before label after → larger before label after)
    (run : Execution step source history target) : Execution larger source history target := by
  induction run with
  | start => exact .start _
  | extend _ taken ih => exact .extend ih (embed taken)

/-- A condition on the steps of a history restricts the step relation. -/
theorem restrict (condition : σ → ε → Prop) (run : Execution step source history target)
    (met : ∀ entry ∈ history, condition entry.1 entry.2) :
    Execution (fun before label after => step before label after ∧ condition before label)
      source history target := by
  induction run with
  | start => exact .start _
  | @extend before after earlier label _ taken ih =>
      refine .extend (ih fun entry member => met entry (List.mem_append_left _ member)) ⟨taken, ?_⟩
      exact met (before, label) (by simp)

/-- A property of histories and states holds all along a run exactly when no step breaks it: an
invariant implies the property, every other step keeps the invariant, and a breaking step ends the
property. -/
theorem throughout_iff
    (holds property : List (σ × ε) → σ → Prop) (breaks : σ → ε → Prop)
    (initial : holds [] source)
    (implies : ∀ {earlier state}, holds earlier state → property earlier state)
    (kept : ∀ {earlier before label after}, holds earlier before → step before label after →
      ¬breaks before label → holds (earlier ++ [(before, label)]) after)
    (broken : ∀ {earlier before label after}, holds earlier before → step before label after →
      breaks before label → ¬property (earlier ++ [(before, label)]) after)
    (run : Execution step source history target) :
    ((∀ earlier entry later, history = earlier ++ entry :: later → property earlier entry.1) ∧
        property history target) ↔
      ∀ entry ∈ history, ¬breaks entry.1 entry.2 := by
  have both : (((∀ earlier entry later, history = earlier ++ entry :: later →
        property earlier entry.1) ∧ property history target) ↔
      ∀ entry ∈ history, ¬breaks entry.1 entry.2) ∧
      ((∀ entry ∈ history, ¬breaks entry.1 entry.2) → holds history target) := by
    induction run with
    | start => exact ⟨by simpa using implies initial, fun _ => initial⟩
    | @extend before after history label _ taken ih =>
        obtain ⟨same, reached⟩ := ih
        simp only [List.forall_mem_append, List.forall_mem_singleton]
        refine ⟨⟨?_, ?_⟩, ?_⟩
        · rintro ⟨visited, final⟩
          have unbroken := same.mp ⟨fun earlier entry later cut =>
            visited earlier entry (later ++ [(before, label)]) (by simp [cut]),
            visited history (before, label) [] rfl⟩
          exact ⟨unbroken, fun breaking => broken (reached unbroken) taken breaking final⟩
        · rintro ⟨unbroken, last⟩
          obtain ⟨visited, held⟩ := same.mpr unbroken
          refine ⟨fun earlier entry later cut => ?_, implies (kept (reached unbroken) taken last)⟩
          rcases List.eq_nil_or_concat later with rfl | ⟨rest, final, rfl⟩
          · obtain ⟨rfl, rfl⟩ := List.append_inj' cut rfl |>.imp id List.singleton_inj.mp
            exact held
          · rw [List.concat_eq_append, ← List.cons_append, ← List.append_assoc] at cut
            exact visited earlier entry rest (List.append_inj' cut rfl).1
        · rintro ⟨unbroken, last⟩
          exact kept (reached unbroken) taken last
  exact both.1

/-- A property of states holds in every state of a run exactly when no step breaks it. -/
theorem always_iff (holds property : σ → Prop)
    (breaks : σ → ε → Prop) (initial : holds source)
    (implies : ∀ {state}, holds state → property state)
    (kept : ∀ {before label after}, holds before → step before label after →
      ¬breaks before label → holds after)
    (broken : ∀ {before label after}, holds before → step before label after →
      breaks before label → ¬property after)
    (run : Execution step source history target) :
    ((∀ entry ∈ history, property entry.1) ∧ property target) ↔
      ∀ entry ∈ history, ¬breaks entry.1 entry.2 := by
  have throughout := run.throughout_iff (fun _ => holds) (fun _ => property) breaks initial
    implies kept broken
  refine Iff.trans (and_congr_left fun _ => ?_) throughout
  constructor
  · intro visited earlier entry later cut
    exact visited entry (by simp [cut])
  · intro visited entry member
    obtain ⟨earlier, later, cut⟩ := List.append_of_mem member
    exact visited earlier entry later cut

/-- Cut an execution after a part of its history. -/
theorem split (run : Execution step source (earlier ++ later) target) :
    ∃ middle, Execution step source earlier middle ∧ Execution step middle later target := by
  induction later using List.reverseRecOn generalizing target with
  | nil => exact ⟨target, by simpa using run, .start target⟩
  | append_singleton rest entry ih =>
      rw [← List.append_assoc] at run
      generalize whole : (earlier ++ rest) ++ [entry] = history at run
      cases run with
      | start => simp at whole
      | extend shorter taken =>
          obtain ⟨rfl, same⟩ := List.append_inj' whole rfl
          obtain ⟨middle, first, second⟩ := ih shorter
          obtain rfl := List.singleton_inj.mp same
          exact ⟨middle, first, .extend second taken⟩

/-- Cut an execution at one of its steps. -/
theorem split_at {entry : σ × ε} (run : Execution step source (earlier ++ entry :: later) target) :
    Execution step source earlier entry.1 ∧
      ∃ next, step entry.1 entry.2 next ∧ Execution step next later target := by
  rw [← List.singleton_append, ← List.append_assoc] at run
  obtain ⟨next, first, second⟩ := run.split
  generalize whole : earlier ++ [entry] = history at first
  cases first with
  | start => simp at whole
  | extend shorter taken =>
      obtain ⟨rfl, same⟩ := List.append_inj' whole rfl
      obtain rfl := List.singleton_inj.mp same
      exact ⟨shorter, next, taken, second⟩

end Execution

end PiAdaptative
