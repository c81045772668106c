import Mathlib.Data.List.Pairwise
import Mathlib.Data.Rat.Defs
import Mathlib.Logic.Basic
import Mathlib.Tactic.NormNum
import PiAdaptative.HostEvents.Parsers

/-!
# Sets of sequences

Custody keeps the positions it never accepted as sorted, disjoint and merged ranges.  Adding a range
and removing a position give such ranges again, which denote the exact set wherever it fits the
bound and otherwise fill in only what lies between two of its ranges.
-/

namespace PiAdaptative.HostEvents

open TaskRuntime

/-- One entry of `parseHostEventSequenceRanges`. -/
def parseSequenceRange (entry : Option Json) : Outcome HostEventSequenceRange := do
  let range ← hostEventRecord entry ["from", "through"] "host event sequence range"
  let fromSequence ← hostEventInteger (range.field "from") "from"
  let through ← hostEventInteger (range.field "through") "through"
  throwHostIf (through < fromSequence) "invalid" "Host event sequence range is reversed."
  return { fromSequence, through }

/-- Whether a range of a list reaches the next one, or touches it. -/
def hasTouchingRanges : List HostEventSequenceRange → Bool
  | first :: second :: rest =>
      second.fromSequence ≤ first.through + 1 || hasTouchingRanges (second :: rest)
  | _ => false

def parseHostEventSequenceRanges (value : Option Json) :
    Outcome (List HostEventSequenceRange) := do
  let ranges ← hostEventArray value MAX_HOST_EVENT_UNACCEPTED_RANGES parseSequenceRange
    "unaccepted ranges"
  throwHostIf (hasTouchingRanges ranges = true) "invalid"
    "Unaccepted ranges must be sorted, disjoint and merged."
  return ranges

def HostEventSequenceRange.toJson (range : HostEventSequenceRange) : Json :=
  .obj [("from", .num range.fromSequence), ("through", .num range.through)]

def sequenceRangesJson (ranges : List HostEventSequenceRange) : Json :=
  .arr (ranges.map HostEventSequenceRange.toJson)

/-- A run of positions between one and the largest safe integer. -/
structure HostEventSequenceRange.Proper (range : HostEventSequenceRange) : Prop where
  positive : 1 ≤ range.fromSequence
  ordered : range.fromSequence ≤ range.through
  safe : range.through ≤ 9007199254740991

/-- A range that ends before another one begins, with a position between them. -/
def HostEventSequenceRange.Before (first second : HostEventSequenceRange) : Prop :=
  first.through + 1 < second.fromSequence

/-- Ranges that are sorted, disjoint and merged. -/
structure Canonical (ranges : List HostEventSequenceRange) : Prop where
  proper : ∀ range ∈ ranges, range.Proper
  apart : ranges.Pairwise HostEventSequenceRange.Before

theorem hostEventInteger_eq_ok {value : Option Json} {label : String} {number : Nat} :
    hostEventInteger value label = .ok number ↔
      value = some (.num number) ∧ 1 ≤ number ∧ number ≤ 9007199254740991 := by
  unfold hostEventInteger
  split
  next held =>
    simp only [bind_eq_ok, exists_unit, throwHostIf_eq_ok, not_not, pure_eq_ok,
      Option.some.injEq, Json.num.injEq, isSafeInteger, Bool.and_eq_true, beq_iff_eq,
      decide_eq_true_eq]
    constructor
    · rintro ⟨⟨⟨whole, small⟩, positive⟩, rfl⟩
      have natural : (held.num.toNat : Int) = held.num := Int.toNat_of_nonneg (by omega)
      refine ⟨?_, by omega, by omega⟩
      rw [← Rat.den_eq_one_iff held |>.mp whole]
      exact_mod_cast congrArg (Int.cast : Int → Rat) natural.symm
    · rintro ⟨rfl, positive, small⟩
      have lower : (1 : Int) ≤ number := by omega
      simp only [Rat.num_natCast, Rat.den_natCast, Int.natAbs_natCast, Int.toNat_natCast]
      exact ⟨⟨⟨trivial, small⟩, lower⟩, trivial⟩
  next other =>
    constructor
    · rintro ⟨⟩
    · rintro ⟨rfl, _⟩
      exact absurd rfl (other _)

variable {range : HostEventSequenceRange}

theorem parseSequenceRange_toJson :
    parseSequenceRange (some range.toJson) = .ok range ↔ range.Proper := by
  have fields : hostEventRecord (some range.toJson) ["from", "through"]
      "host event sequence range" = .ok range.toJson := rfl
  have first : range.toJson.field "from" = some (.num range.fromSequence) := rfl
  have last : range.toJson.field "through" = some (.num range.through) := rfl
  simp only [parseSequenceRange, bind_eq_ok, fields, Except.ok.injEq, exists_eq_left', first, last,
    hostEventInteger_eq_ok, exists_unit, throwHostIf_eq_ok, pure_eq_ok]
  constructor
  · rintro ⟨fromSequence, ⟨_, positive, _⟩, through, ⟨_, _, safe⟩, ordered, rfl⟩
    exact ⟨positive, Nat.not_lt.mp ordered, safe⟩
  · intro proper
    have positive := proper.positive
    have ordered := proper.ordered
    have safe := proper.safe
    exact ⟨_, ⟨rfl, positive, by omega⟩, _, ⟨rfl, by omega, safe⟩, Nat.not_lt.mpr ordered, rfl⟩

theorem parseSequenceRange_proper {entry : Option Json}
    (parsed : parseSequenceRange entry = .ok range) : range.Proper := by
  simp only [parseSequenceRange, bind_eq_ok, hostEventInteger_eq_ok, exists_unit,
    throwHostIf_eq_ok, pure_eq_ok] at parsed
  obtain ⟨_, _, fromSequence, ⟨_, positive, _⟩, through, ⟨_, _, safe⟩, ordered, rfl⟩ := parsed
  exact ⟨positive, Nat.not_lt.mp ordered, safe⟩

variable {ranges : List HostEventSequenceRange}

theorem hasTouchingRanges_eq_false (proper : ∀ range ∈ ranges, range.Proper) :
    hasTouchingRanges ranges = false ↔ ranges.Pairwise HostEventSequenceRange.Before := by
  induction ranges with
  | nil => simp [hasTouchingRanges]
  | cons first rest ih =>
      cases rest with
      | nil => simp [hasTouchingRanges]
      | cons second rest =>
          have later := ih fun range mem => proper range (List.mem_cons_of_mem _ mem)
          have ordered := (proper second (by simp)).ordered
          simp only [hasTouchingRanges, Bool.or_eq_false_iff, decide_eq_false_iff_not, later]
          rw [List.pairwise_cons (a := first)]
          constructor
          · rintro ⟨gap, apart⟩
            refine ⟨fun range mem => ?_, apart⟩
            rcases List.mem_cons.mp mem with rfl | further
            · exact Nat.not_le.mp gap
            · have next : second.Before range := List.rel_of_pairwise_cons apart further
              unfold HostEventSequenceRange.Before at next ⊢
              omega
          · rintro ⟨before, apart⟩
            exact ⟨Nat.not_le.mpr (before second (by simp)), apart⟩

theorem parseHostEventSequenceRanges_canonical {value : Option Json}
    (parsed : parseHostEventSequenceRanges value = .ok ranges) :
    Canonical ranges ∧ ranges.length ≤ MAX_HOST_EVENT_UNACCEPTED_RANGES := by
  simp only [parseHostEventSequenceRanges, bind_eq_ok, exists_unit, throwHostIf_eq_ok,
    pure_eq_ok] at parsed
  obtain ⟨read, listed, apart, rfl⟩ := parsed
  unfold hostEventArray at listed
  split at listed
  next elements =>
    simp only [bind_eq_ok, exists_unit, throwHostIf_eq_ok] at listed
    obtain ⟨within, mapped⟩ := listed
    have proper : ∀ range ∈ read, range.Proper := by
      intro range mem
      obtain ⟨element, _, parsedElement⟩ := mapOutcome_mem mapped mem
      exact parseSequenceRange_proper parsedElement
    refine ⟨⟨proper, ?_⟩, ?_⟩
    · exact (hasTouchingRanges_eq_false proper).mp (Bool.eq_false_iff.mpr apart)
    · rw [length_mapOutcome mapped]
      exact Nat.not_lt.mp within
  · cases listed

theorem parseHostEventSequenceRanges_of_canonical (canonical : Canonical ranges)
    (few : ranges.length ≤ MAX_HOST_EVENT_UNACCEPTED_RANGES) :
    parseHostEventSequenceRanges (some (sequenceRangesJson ranges)) = .ok ranges := by
  have mapped : mapOutcome (fun element => parseSequenceRange (some element))
      (ranges.map HostEventSequenceRange.toJson) = .ok ranges :=
    mapOutcome_map.mpr fun range mem => parseSequenceRange_toJson.mpr (canonical.proper range mem)
  simp only [parseHostEventSequenceRanges, hostEventArray, sequenceRangesJson, bind_eq_ok,
    exists_unit, throwHostIf_eq_ok, pure_eq_ok, List.length_map, mapped]
  refine ⟨ranges, ⟨Nat.not_lt.mpr few, rfl⟩, ?_, rfl⟩
  rw [(hasTouchingRanges_eq_false canonical.proper).mpr canonical.apart]
  exact Bool.false_ne_true

/-- Whether a position lies in a range. -/
def HostEventSequenceRange.Holds (range : HostEventSequenceRange) (sequence : Nat) : Prop :=
  range.fromSequence ≤ sequence ∧ sequence ≤ range.through

variable {sequence : Nat}

theorem hostEventSequenceUnaccepted_iff :
    hostEventSequenceUnaccepted ranges sequence = true ↔
      ∃ range ∈ ranges, range.Holds sequence := by
  simp [hostEventSequenceUnaccepted, HostEventSequenceRange.Holds]

variable {rest : List HostEventSequenceRange} {first : HostEventSequenceRange}

theorem holds_cons : (∃ range ∈ first :: rest, range.Holds sequence) ↔
      first.Holds sequence ∨ ∃ range ∈ rest, range.Holds sequence := by
  simp only [List.mem_cons, or_and_right, exists_or, exists_eq_left]

variable {left right : List HostEventSequenceRange}

theorem holds_append :
    (∃ range ∈ left ++ right, range.Holds sequence) ↔
      (∃ range ∈ left, range.Holds sequence) ∨ ∃ range ∈ right, range.Holds sequence := by
  simp only [List.mem_append, or_and_right, exists_or]

theorem holds_singleton : (∃ other ∈ [range], other.Holds sequence) ↔ range.Holds sequence := by
  simp only [List.mem_singleton, exists_eq_left]

/-- Whether a position lies between two ranges of a list. -/
def BetweenRanges (ranges : List HostEventSequenceRange) (sequence : Nat) : Prop :=
  ∃ lower ∈ ranges, ∃ upper ∈ ranges, lower.through < sequence ∧ sequence < upper.fromSequence

theorem Canonical.tail (canonical : Canonical (first :: rest)) : Canonical rest :=
  ⟨fun range mem => canonical.proper range (List.mem_cons_of_mem _ mem),
    (List.pairwise_cons.mp canonical.apart).2⟩

theorem Canonical.holds_tail (canonical : Canonical (first :: rest)) :
    (∃ range ∈ rest, range.Holds sequence) ↔
      (∃ range ∈ first :: rest, range.Holds sequence) ∧ first.through + 1 < sequence := by
  have before := (List.pairwise_cons.mp canonical.apart).1
  rw [holds_cons]
  unfold HostEventSequenceRange.Holds
  constructor
  · rintro ⟨range, mem, held⟩
    exact ⟨.inr ⟨range, mem, held⟩, Nat.lt_of_lt_of_le (before range mem) held.1⟩
  · rintro ⟨inFirst | later, past⟩
    · omega
    · exact later

theorem Canonical.least (canonical : Canonical (first :: rest))
    (held : ∃ range ∈ first :: rest, range.Holds sequence) : first.fromSequence ≤ sequence := by
  have ordered := (canonical.proper first (by simp)).ordered
  rw [holds_cons] at held
  rcases held with inFirst | later
  · exact inFirst.1
  · have past := (canonical.holds_tail.mp later).2
    omega

theorem Canonical.through_le {first second : HostEventSequenceRange}
    {rest others : List HostEventSequenceRange} (left : Canonical (first :: rest))
    (begins : first.fromSequence = second.fromSequence)
    (subset : ∀ sequence, (∃ range ∈ second :: others, range.Holds sequence) →
      ∃ range ∈ first :: rest, range.Holds sequence) : second.through ≤ first.through := by
  by_contra longer
  have ordered := (left.proper first (by simp)).ordered
  have held := subset (first.through + 1)
    (holds_cons.mpr (.inl ⟨by omega, by omega⟩))
  rw [holds_cons] at held
  rcases held with inFirst | later
  · exact absurd inFirst.2 (by omega)
  · exact absurd (left.holds_tail.mp later).2 (by omega)

/-- A set of positions has one list of canonical ranges. -/
theorem Canonical.unique (first : Canonical left)
    (second : Canonical right)
    (same : ∀ sequence, (∃ range ∈ left, range.Holds sequence) ↔
      ∃ range ∈ right, range.Holds sequence) : left = right := by
  induction left generalizing right with
  | nil =>
      cases right with
      | nil => rfl
      | cons range ranges =>
          have ordered := (second.proper range (by simp)).ordered
          simpa using (same range.fromSequence).mpr
            (holds_cons.mpr (.inl ⟨Nat.le_refl _, ordered⟩))
  | cons head rest ih =>
      have headOrdered := (first.proper head (by simp)).ordered
      cases right with
      | nil =>
          simpa using (same head.fromSequence).mp
            (holds_cons.mpr (.inl ⟨Nat.le_refl _, headOrdered⟩))
      | cons range ranges =>
          have ordered := (second.proper range (by simp)).ordered
          have begins : head.fromSequence = range.fromSequence := Nat.le_antisymm
            (first.least ((same _).mpr (holds_cons.mpr (.inl ⟨Nat.le_refl _, ordered⟩))))
            (second.least ((same _).mp (holds_cons.mpr (.inl ⟨Nat.le_refl _, headOrdered⟩))))
          have ends : head.through = range.through := Nat.le_antisymm
            (second.through_le begins.symm fun sequence => (same sequence).mp)
            (first.through_le begins fun sequence => (same sequence).mpr)
          have heads : head = range := by
            cases head
            simp_all
          subst heads
          rw [ih first.tail second.tail fun sequence => by
            rw [first.holds_tail, second.holds_tail, same]]

/-- Joining the two lowest ranges leaves canonical ranges. -/
theorem Canonical.join {first second : HostEventSequenceRange}
    (canonical : Canonical (first :: second :: rest)) :
    Canonical ({ fromSequence := first.fromSequence, through := second.through } :: rest) := by
  have lower := canonical.proper first (by simp)
  have upper := canonical.proper second (by simp)
  have apart : first.Before second := List.rel_of_pairwise_cons canonical.apart (by simp)
  unfold HostEventSequenceRange.Before at apart
  have ordered := lower.ordered
  have bounded := upper.ordered
  refine ⟨List.forall_mem_cons.mpr ⟨⟨lower.positive, by dsimp only; omega, upper.safe⟩, ?_⟩, ?_⟩
  · exact canonical.tail.tail.proper
  · refine List.pairwise_cons.mpr ⟨fun range mem => ?_, canonical.tail.tail.apart⟩
    exact List.rel_of_pairwise_cons canonical.tail.apart mem

variable {bound : Nat}

theorem coalesceFrom_canonical (canonical : Canonical (first :: rest)) :
    Canonical (coalesceFrom bound first rest) := by
  induction rest generalizing first with
  | nil => exact canonical
  | cons second rest ih =>
      unfold coalesceFrom
      split
      · exact ih canonical.join
      · exact canonical

theorem length_coalesceFrom (positive : 1 ≤ bound) :
    (coalesceFrom bound first rest).length ≤ bound := by
  induction rest generalizing first with
  | nil => exact positive
  | cons second rest ih =>
      unfold coalesceFrom
      split
      · exact ih
      · simp only [List.length_cons]
        omega

theorem coalesceFrom_eq (fits : (first :: rest).length ≤ bound) :
    coalesceFrom bound first rest = first :: rest := by
  cases rest with
  | nil => rfl
  | cons second rest =>
      simp only [List.length_cons] at fits
      rw [coalesceFrom, if_neg (by omega)]

theorem coalesceFrom_superset (canonical : Canonical (first :: rest))
    (held : ∃ range ∈ first :: rest, range.Holds sequence) :
    ∃ range ∈ coalesceFrom bound first rest, range.Holds sequence := by
  induction rest generalizing first with
  | nil => exact held
  | cons second rest ih =>
      unfold coalesceFrom
      split
      · refine ih canonical.join ?_
        have apart : first.Before second := List.rel_of_pairwise_cons canonical.apart (by simp)
        have lower := (canonical.proper first (by simp)).ordered
        have upper := (canonical.proper second (by simp)).ordered
        unfold HostEventSequenceRange.Before at apart
        rw [holds_cons, holds_cons] at held
        rw [holds_cons]
        unfold HostEventSequenceRange.Holds at held ⊢
        rcases held with inFirst | inSecond | later
        · exact .inl ⟨inFirst.1, by dsimp only; omega⟩
        · exact .inl ⟨by dsimp only; omega, inSecond.2⟩
        · exact .inr later
      · exact held

theorem coalesceFrom_adds_between (canonical : Canonical (first :: rest))
    (held : ∃ range ∈ coalesceFrom bound first rest, range.Holds sequence) :
    (∃ range ∈ first :: rest, range.Holds sequence) ∨ BetweenRanges (first :: rest) sequence := by
  induction rest generalizing first with
  | nil => exact .inl held
  | cons second rest ih =>
      unfold coalesceFrom at held
      split at held
      · rcases ih canonical.join held with kept | ⟨lower, below, upper, above, between⟩
        · rw [holds_cons] at kept
          rw [holds_cons, holds_cons]
          rcases kept with joined | later
          · by_cases inFirst : sequence ≤ first.through
            · exact .inl (.inl ⟨joined.1, inFirst⟩)
            · by_cases inSecond : second.fromSequence ≤ sequence
              · exact .inl (.inr (.inl ⟨inSecond, joined.2⟩))
              · exact .inr ⟨first, by simp, second, by simp, by omega, by omega⟩
          · exact .inl (.inr (.inr later))
        · right
          have lowered : ∃ range ∈ first :: second :: rest, range.through = lower.through := by
            rcases List.mem_cons.mp below with rfl | later
            · exact ⟨second, by simp, rfl⟩
            · exact ⟨lower, by simp [later], rfl⟩
          have raised : ∃ range ∈ first :: second :: rest,
              range.fromSequence = upper.fromSequence := by
            rcases List.mem_cons.mp above with rfl | later
            · exact ⟨first, by simp, rfl⟩
            · exact ⟨upper, by simp [later], rfl⟩
          obtain ⟨lowest, known, ends⟩ := lowered
          obtain ⟨highest, found, begins⟩ := raised
          exact ⟨lowest, known, highest, found, by omega, by omega⟩
      · exact .inl held

/-- What bounded ranges say of the exact ones: they are canonical and within the bound, are the
exact ones wherever these fit, and otherwise add only positions between two exact ranges. -/
structure Coalesced (bound : Nat) (exact ranges : List HostEventSequenceRange) : Prop where
  canonical : Canonical ranges
  few : ranges.length ≤ bound
  same : exact.length ≤ bound → ranges = exact
  superset : ∀ sequence, hostEventSequenceUnaccepted exact sequence = true →
    hostEventSequenceUnaccepted ranges sequence = true
  between : ∀ sequence, hostEventSequenceUnaccepted ranges sequence = true →
    hostEventSequenceUnaccepted exact sequence = true ∨ BetweenRanges exact sequence

variable {exact : List HostEventSequenceRange}

theorem coalesceLowestRanges_coalesced (positive : 1 ≤ bound) (canonical : Canonical exact) :
    Coalesced bound exact (coalesceLowestRanges bound exact) := by
  cases exact with
  | nil =>
      exact { canonical := canonical
              few := Nat.zero_le bound
              same := fun _ => rfl
              superset := fun _ held => held
              between := fun _ held => .inl held }
  | cons first rest =>
      exact { canonical := coalesceFrom_canonical canonical
              few := length_coalesceFrom positive
              same := coalesceFrom_eq
              superset := fun sequence held =>
                hostEventSequenceUnaccepted_iff.mpr
                  (coalesceFrom_superset canonical (hostEventSequenceUnaccepted_iff.mp held))
              between := fun sequence held =>
                (coalesceFrom_adds_between canonical (hostEventSequenceUnaccepted_iff.mp held)).imp
                  hostEventSequenceUnaccepted_iff.mpr id }

theorem mergeRange_nil : mergeRange [] range = [range] := rfl

variable {merged : List HostEventSequenceRange}

theorem mergeRange_append {last range : HostEventSequenceRange} :
    mergeRange (merged ++ [last]) range =
      if range.fromSequence ≤ last.through + 1 then
        merged ++ [{ fromSequence := last.fromSequence, through := max last.through range.through }]
      else merged ++ [last] ++ [range] := by
  simp [mergeRange]

theorem Canonical.append (canonical : Canonical ranges) (proper : range.Proper)
    (before : ∀ other ∈ ranges, other.Before range) : Canonical (ranges ++ [range]) := by
  refine ⟨fun other mem => ?_, List.pairwise_append.mpr ⟨canonical.apart, by simp, ?_⟩⟩
  · rcases List.mem_append.mp mem with known | added
    · exact canonical.proper other known
    · rw [List.mem_singleton.mp added]
      exact proper
  · intro other known added mem
    rw [List.mem_singleton.mp mem]
    exact before other known

theorem Canonical.init {last : HostEventSequenceRange} (canonical : Canonical (ranges ++ [last])) :
    Canonical ranges ∧ last.Proper ∧ ∀ other ∈ ranges, other.Before last := by
  obtain ⟨apart, -, before⟩ := List.pairwise_append.mp canonical.apart
  refine ⟨⟨fun range mem => canonical.proper range (by simp [mem]), apart⟩, ?_, fun other mem => ?_⟩
  · exact canonical.proper last (by simp)
  · exact before other mem last (by simp)

/-- Merging a range that begins no earlier than the merged ones adds exactly its positions. -/
theorem mergeRange_exact (canonical : Canonical merged) (proper : range.Proper)
    (sorted : ∀ other ∈ merged, other.fromSequence ≤ range.fromSequence) :
    Canonical (mergeRange merged range) ∧
      (∀ sequence, (∃ other ∈ mergeRange merged range, other.Holds sequence) ↔
        (∃ other ∈ merged, other.Holds sequence) ∨ range.Holds sequence) ∧
      ∀ other ∈ mergeRange merged range, other.fromSequence ≤ range.fromSequence := by
  rcases List.eq_nil_or_concat merged with rfl | ⟨init, last, rfl⟩
  · rw [mergeRange_nil]
    exact ⟨⟨by simpa using proper, by simp⟩, by simp, by simp⟩
  · rw [List.concat_eq_append] at canonical sorted ⊢
    obtain ⟨earlier, lastProper, before⟩ := canonical.init
    have begins := sorted last (by simp)
    rw [mergeRange_append]
    split
    next touching =>
      have joined : HostEventSequenceRange.Proper
          { fromSequence := last.fromSequence, through := max last.through range.through } :=
        ⟨lastProper.positive, Nat.le_trans lastProper.ordered (Nat.le_max_left _ _),
          Nat.max_le.mpr ⟨lastProper.safe, proper.safe⟩⟩
      refine ⟨earlier.append joined before, fun sequence => ?_, fun other mem => ?_⟩
      · rw [holds_append, holds_append, holds_singleton, holds_singleton, or_assoc]
        refine or_congr_right ?_
        unfold HostEventSequenceRange.Holds
        dsimp only
        omega
      · rcases List.mem_append.mp mem with known | added
        · exact sorted other (by simp [known])
        · rw [List.mem_singleton.mp added]
          exact begins
    next distant =>
      refine ⟨canonical.append proper fun other mem => ?_, fun sequence => ?_, fun other mem => ?_⟩
      · unfold HostEventSequenceRange.Before at before ⊢
        rcases List.mem_append.mp mem with known | added
        · have apart := before other known
          omega
        · rw [List.mem_singleton.mp added]
          omega
      · rw [holds_append, holds_singleton]
      · rcases List.mem_append.mp mem with known | added
        · exact sorted other known
        · rw [List.mem_singleton.mp added]

theorem foldl_mergeRange_exact {ranges merged : List HostEventSequenceRange}
    (canonical : Canonical merged) (proper : ∀ range ∈ ranges, range.Proper)
    (sorted : ranges.Pairwise fun left right => left.fromSequence ≤ right.fromSequence)
    (later : ∀ other ∈ merged, ∀ range ∈ ranges, other.fromSequence ≤ range.fromSequence) :
    Canonical (ranges.foldl mergeRange merged) ∧
      ∀ sequence, (∃ other ∈ ranges.foldl mergeRange merged, other.Holds sequence) ↔
        (∃ other ∈ merged, other.Holds sequence) ∨ ∃ range ∈ ranges, range.Holds sequence := by
  induction ranges generalizing merged with
  | nil => exact ⟨canonical, by simp⟩
  | cons range ranges ih =>
      obtain ⟨first, rest⟩ := List.pairwise_cons.mp sorted
      obtain ⟨kept, positions, bounded⟩ := mergeRange_exact canonical (proper range (by simp))
        fun other mem => later other mem range (by simp)
      obtain ⟨folded, denoted⟩ := ih kept (fun next mem => proper next (by simp [mem])) rest
        fun other mem next known => Nat.le_trans (bounded other mem) (first next known)
      refine ⟨folded, fun sequence => ?_⟩
      rw [List.foldl_cons, denoted, positions, holds_cons, or_assoc]

theorem foldl_mergeRange_sorted {added : HostEventSequenceRange} (canonical : Canonical ranges)
    (proper : added.Proper) :
    Canonical ((sortRanges (ranges ++ [added])).foldl mergeRange []) ∧
      ∀ sequence,
        hostEventSequenceUnaccepted ((sortRanges (ranges ++ [added])).foldl mergeRange [])
            sequence = true ↔
          hostEventSequenceUnaccepted ranges sequence = true ∨ added.Holds sequence := by
  have permuted : (sortRanges (ranges ++ [added])).Perm (ranges ++ [added]) :=
    List.mergeSort_perm _ _
  have sorted : (sortRanges (ranges ++ [added])).Pairwise
      fun left right => left.fromSequence ≤ right.fromSequence := by
    refine (List.pairwise_mergeSort (fun left middle right => ?_) (fun left right => ?_) _).imp ?_
    · simp only [decide_eq_true_eq]
      exact Nat.le_trans
    · simp only [Bool.or_eq_true, decide_eq_true_eq]
      exact Nat.le_total _ _
    · simp
  have empty : Canonical [] := ⟨by simp, by simp⟩
  have each : ∀ range ∈ sortRanges (ranges ++ [added]), range.Proper := by
    intro range mem
    rcases List.mem_append.mp (permuted.mem_iff.mp mem) with known | new
    · exact canonical.proper range known
    · rw [List.mem_singleton.mp new]
      exact proper
  obtain ⟨merged, positions⟩ := foldl_mergeRange_exact empty each sorted (by simp)
  refine ⟨merged, fun sequence => ?_⟩
  rw [hostEventSequenceUnaccepted_iff, hostEventSequenceUnaccepted_iff, positions]
  simp only [permuted.mem_iff, holds_append, holds_singleton]
  simp

theorem mem_splitRange {sequence position : Nat} :
    (∃ part ∈ splitRange sequence range, part.Holds position) ↔
      range.Holds position ∧ position ≠ sequence := by
  unfold splitRange HostEventSequenceRange.Holds
  split
  · simp only [List.mem_singleton, exists_eq_left]
    omega
  · split <;> split <;> simp <;> omega

theorem splitRange_within {range part : HostEventSequenceRange} (proper : range.Proper)
    (mem : part ∈ splitRange sequence range) :
    part.Proper ∧ range.fromSequence ≤ part.fromSequence ∧ part.through ≤ range.through := by
  have positive := proper.positive
  have safe := proper.safe
  unfold splitRange at mem
  split at mem
  · rw [List.mem_singleton.mp mem]
    exact ⟨proper, Nat.le_refl _, Nat.le_refl _⟩
  · rcases List.mem_append.mp mem with below | above
    · split at below
      · rw [List.mem_singleton.mp below]
        exact ⟨⟨positive, by dsimp only; omega, by dsimp only; omega⟩, Nat.le_refl _,
          by dsimp only; omega⟩
      · cases below
    · split at above
      · rw [List.mem_singleton.mp above]
        exact ⟨⟨by dsimp only; omega, by dsimp only; omega, safe⟩, by dsimp only; omega,
          Nat.le_refl _⟩
      · cases above

theorem splitRange_apart : (splitRange sequence range).Pairwise HostEventSequenceRange.Before := by
  unfold splitRange
  split
  · simp
  · split <;> split <;> simp [HostEventSequenceRange.Before]
    omega

theorem flatMap_splitRange (canonical : Canonical ranges) (sequence : Nat) :
    Canonical (ranges.flatMap (splitRange sequence)) ∧
      ∀ position,
        hostEventSequenceUnaccepted (ranges.flatMap (splitRange sequence)) position = true ↔
          hostEventSequenceUnaccepted ranges position = true ∧ position ≠ sequence := by
  refine ⟨⟨fun part mem => ?_, List.pairwise_flatMap.mpr ⟨fun _ _ => splitRange_apart, ?_⟩⟩,
    fun position => ?_⟩
  · obtain ⟨range, known, split⟩ := List.mem_flatMap.mp mem
    exact (splitRange_within (canonical.proper range known) split).1
  · refine canonical.apart.imp_of_mem fun {left right} leftMem rightMem before part mem other met => ?_
    have lower := splitRange_within (canonical.proper left leftMem) mem
    have upper := splitRange_within (canonical.proper right rightMem) met
    unfold HostEventSequenceRange.Before at before ⊢
    omega
  · rw [hostEventSequenceUnaccepted_iff, hostEventSequenceUnaccepted_iff]
    constructor
    · rintro ⟨part, mem, held⟩
      obtain ⟨range, known, split⟩ := List.mem_flatMap.mp mem
      obtain ⟨within, other⟩ := mem_splitRange.mp ⟨part, split, held⟩
      exact ⟨⟨range, known, within⟩, other⟩
    · rintro ⟨⟨range, known, within⟩, other⟩
      obtain ⟨part, split, held⟩ := mem_splitRange.mpr ⟨within, other⟩
      exact ⟨part, List.mem_flatMap.mpr ⟨range, known, split⟩, held⟩

/-- Ranges that keep a set of positions within a bound: the parser accepts them again, and they are
the set's own ranges wherever these fit and otherwise add only positions between two of these. -/
structure KeepsPositions (bound : Nat) (ranges : List HostEventSequenceRange)
    (positions : Nat → Prop) : Prop where
  accepted : bound ≤ MAX_HOST_EVENT_UNACCEPTED_RANGES →
    parseHostEventSequenceRanges (some (sequenceRangesJson ranges)) = .ok ranges
  few : ranges.length ≤ bound
  superset : ∀ sequence, positions sequence → hostEventSequenceUnaccepted ranges sequence = true
  denotable : ∃! exact, Canonical exact ∧
    ∀ sequence, hostEventSequenceUnaccepted exact sequence = true ↔ positions sequence
  /-- The result is that list where it fits, and otherwise fills in only what lies between. -/
  blurred : ∀ exact, Canonical exact →
    (∀ sequence, hostEventSequenceUnaccepted exact sequence = true ↔ positions sequence) →
    (exact.length ≤ bound → ranges = exact) ∧
    ∀ sequence, hostEventSequenceUnaccepted ranges sequence = true →
      positions sequence ∨ BetweenRanges exact sequence

theorem coalesceLowestRanges_keeps (positive : 1 ≤ bound) {positions : Nat → Prop}
    (canonical : Canonical exact)
    (denoted : ∀ sequence, hostEventSequenceUnaccepted exact sequence = true ↔ positions sequence) :
    KeepsPositions bound (coalesceLowestRanges bound exact) positions := by
  have coalesced := coalesceLowestRanges_coalesced positive canonical
  have only : ∀ other, Canonical other →
      (∀ sequence, hostEventSequenceUnaccepted other sequence = true ↔ positions sequence) →
      other = exact := by
    intro other otherCanonical otherDenoted
    refine otherCanonical.unique canonical fun sequence => ?_
    rw [← hostEventSequenceUnaccepted_iff, ← hostEventSequenceUnaccepted_iff, otherDenoted, denoted]
  refine { accepted := fun small => ?_
           few := coalesced.few
           superset := fun sequence held => ?_
           denotable := ⟨exact, ⟨canonical, denoted⟩, fun other held => only other held.1 held.2⟩
           blurred := fun other otherCanonical otherDenoted => ?_ }
  · exact parseHostEventSequenceRanges_of_canonical coalesced.canonical
      (Nat.le_trans coalesced.few small)
  · exact coalesced.superset sequence ((denoted sequence).mpr held)
  · rw [only other otherCanonical otherDenoted]
    exact ⟨coalesced.same, fun sequence held =>
      (coalesced.between sequence held).imp (denoted sequence).mp id⟩

/-- Adding a range to accepted ranges, within any bound, keeps the union, and removing a position
keeps the difference. -/
theorem sequence_ranges_keep_union_and_difference {value : Option Json}
    {ranges : List HostEventSequenceRange}
    (parsed : parseHostEventSequenceRanges value = .ok ranges) :
    (∀ added, added.Proper →
      (∀ bound, 1 ≤ bound →
        KeepsPositions bound (mergeSequenceRanges ranges added bound) fun sequence =>
          hostEventSequenceUnaccepted ranges sequence = true ∨ added.Holds sequence) ∧
      KeepsPositions MAX_HOST_EVENT_UNACCEPTED_RANGES (hostEventUnacceptedWith ranges added)
        fun sequence =>
          hostEventSequenceUnaccepted ranges sequence = true ∨ added.Holds sequence) ∧
    ∀ removed,
      KeepsPositions MAX_HOST_EVENT_UNACCEPTED_RANGES (hostEventUnacceptedWithout ranges removed)
        fun sequence => hostEventSequenceUnaccepted ranges sequence = true ∧ sequence ≠ removed := by
  have canonical := (parseHostEventSequenceRanges_canonical parsed).1
  have merges : ∀ added, added.Proper → ∀ bound, 1 ≤ bound →
      KeepsPositions bound (mergeSequenceRanges ranges added bound) fun sequence =>
        hostEventSequenceUnaccepted ranges sequence = true ∨ added.Holds sequence := by
    intro added proper bound positive
    obtain ⟨merged, denoted⟩ := foldl_mergeRange_sorted canonical proper
    exact coalesceLowestRanges_keeps positive merged denoted
  refine ⟨fun added proper => ⟨merges added proper, ?_⟩, fun removed => ?_⟩
  · exact merges added proper _ (by decide)
  · obtain ⟨parts, denoted⟩ := flatMap_splitRange canonical removed
    exact coalesceLowestRanges_keeps (by decide) parts denoted

/-- Two accepted ranges, with a range that bridges them and a position inside the first. -/
theorem two_sequence_ranges_keep_union_and_difference :
    KeepsPositions 1 (mergeSequenceRanges [⟨1, 3⟩, ⟨9, 9⟩] ⟨4, 6⟩ 1) (fun sequence =>
        hostEventSequenceUnaccepted [⟨1, 3⟩, ⟨9, 9⟩] sequence = true ∨
          HostEventSequenceRange.Holds ⟨4, 6⟩ sequence) ∧
      KeepsPositions MAX_HOST_EVENT_UNACCEPTED_RANGES
        (hostEventUnacceptedWithout [⟨1, 3⟩, ⟨9, 9⟩] 2) (fun sequence =>
          hostEventSequenceUnaccepted [⟨1, 3⟩, ⟨9, 9⟩] sequence = true ∧ sequence ≠ 2) := by
  have canonical : Canonical [⟨1, 3⟩, ⟨9, 9⟩] :=
    { proper := by
        simp only [List.forall_mem_cons]
        exact ⟨⟨by decide, by decide, by decide⟩, ⟨by decide, by decide, by decide⟩, by simp⟩
      apart := by simp [HostEventSequenceRange.Before] }
  have parsed := parseHostEventSequenceRanges_of_canonical canonical (by decide)
  obtain ⟨added, removed⟩ := sequence_ranges_keep_union_and_difference parsed
  have proper : HostEventSequenceRange.Proper ⟨4, 6⟩ := ⟨by decide, by decide, by decide⟩
  exact ⟨(added ⟨4, 6⟩ proper).1 1 (by decide), removed 2⟩

/-- A removed position splits the range around it. -/
example : hostEventUnacceptedWithout [⟨1, 3⟩, ⟨9, 9⟩] 2 = [⟨1, 1⟩, ⟨3, 3⟩, ⟨9, 9⟩] := by
  decide

end PiAdaptative.HostEvents
