import PiAdaptative.TextProtocol.LiveFilter

/-!
# What the live filter shows

The state of the filter depends on the text it was given and not on how the text was cut.  At the
end of a text the filter shows the prose between the envelopes, without an end of the last prose
that begins an opener.
-/

namespace PiAdaptative.TextProtocol

open Delimiters

abbrev Known (pattern : TextToolProtocolEnvelopeDelimiter) : Prop :=
  pattern ∈ TEXT_TOOL_PROTOCOL_ENVELOPE_DELIMITERS

variable {pattern : TextToolProtocolEnvelopeDelimiter}

theorem opener_ne_nil (known : Known pattern) : pattern.opener ≠ [] :=
  (delimiters_nonempty pattern known).1

theorem closer_ne_nil (known : Known pattern) : pattern.closer ≠ [] :=
  (delimiters_nonempty pattern known).2

theorem opener_triggers : ∀ pattern, Known pattern →
    (pattern.opener.head?.any fun unit => unit == 60 || unit == 96) = true := by
  decide +kernel

theorem openers_apart : ∀ first, Known first → ∀ second, Known second →
    ∀ index < first.opener.length, 0 < index →
      (first.opener.drop index).isPrefixOf second.opener = false ∧
        second.opener.isPrefixOf (first.opener.drop index) = false := by
  decide +kernel

theorem openers_nested (first : TextToolProtocolEnvelopeDelimiter) (firstKnown : Known first)
    (second : TextToolProtocolEnvelopeDelimiter) (secondKnown : Known second)
    (begins : first.opener.isPrefixOf second.opener = true) :
    first.closer = second.closer ∧
      ∀ unit ∈ second.opener.drop first.opener.length, unit ∉ first.closer := by
  have checked : ∀ first, Known first → ∀ second, Known second →
      first.opener.isPrefixOf second.opener = true →
        first.closer = second.closer ∧
          (second.opener.drop first.opener.length).all
            (fun unit => !first.closer.contains unit) = true := by
    decide +kernel
  obtain ⟨same, apart⟩ := checked first firstKnown second secondKnown begins
  refine ⟨same, fun unit mem => ?_⟩
  simpa using List.all_eq_true.mp apart unit mem

variable {text : Text} {best : Option (Nat × TextToolProtocolEnvelopeDelimiter)}

theorem earlierOpener_isSome :
    (earlierOpener text best pattern).isSome = true ↔
      best.isSome = true ∨ (indexOf pattern.opener text).isSome = true := by
  unfold earlierOpener
  cases indexOf pattern.opener text with
  | none => simp
  | some index =>
      cases best with
      | none => simp
      | some known => by_cases less : index < known.1 <;> simp [less]

variable {patterns : List TextToolProtocolEnvelopeDelimiter} {index : Nat}

/-- The earliest opener comes first. -/
theorem foldl_earlierOpener_le
    (found : patterns.foldl (earlierOpener text) best = some (index, pattern)) :
    (∀ known, best = some known → index ≤ known.1) ∧
      ∀ other ∈ patterns, ∀ position, indexOf other.opener text = some position →
        index ≤ position := by
  induction patterns generalizing best with
  | nil =>
      refine ⟨fun known same => ?_, by simp⟩
      cases same.symm.trans found
      exact Nat.le_refl _
  | cons first patterns ih =>
      obtain ⟨least, rest⟩ := ih found
      have both : (∀ known, best = some known → index ≤ known.1) ∧
          ∀ position, indexOf first.opener text = some position → index ≤ position := by
        unfold earlierOpener at least
        cases occurs : indexOf first.opener text with
        | none =>
            rw [occurs] at least
            exact ⟨least, by simp⟩
        | some position =>
            rw [occurs] at least
            cases best with
            | none =>
                refine ⟨by simp, fun other same => ?_⟩
                cases same
                exact least _ rfl
            | some known =>
                simp only at least
                split at least
                next less =>
                  have bound := least _ rfl
                  refine ⟨fun other same => ?_, fun other same => ?_⟩
                  · cases same
                    exact bound.trans less.le
                  · cases same
                    exact bound
                next more =>
                  have bound := least _ rfl
                  refine ⟨fun other same => ?_, fun other same => ?_⟩
                  · cases same
                    exact bound
                  · cases same
                    exact bound.trans (Nat.not_lt.mp more)
      exact ⟨both.1, List.forall_mem_cons.mpr ⟨both.2, rest⟩⟩

theorem foldl_earlierOpener_isSome :
    (patterns.foldl (earlierOpener text) best).isSome = true ↔
      best.isSome = true ∨
        ∃ pattern ∈ patterns, (indexOf pattern.opener text).isSome = true := by
  induction patterns generalizing best with
  | nil => simp
  | cons first patterns ih => simp [ih, earlierOpener_isSome, or_assoc]

/-- An opener begins at an index. -/
def OpensAt (text : Text) (index : Nat) (pattern : TextToolProtocolEnvelopeDelimiter) : Prop :=
  Known pattern ∧ pattern.opener <+: text.drop index

/-- The earliest opener of a text. -/
theorem findEarliestEnvelopeOpener_eq_some
    (found : findEarliestEnvelopeOpener text = some (index, pattern)) :
    OpensAt text index pattern ∧
      ∀ position other, OpensAt text position other → index ≤ position := by
  obtain ⟨known, occurs⟩ := findEarliestEnvelopeOpener_mem found
  refine ⟨⟨known, (indexOf_eq_some occurs).1⟩, ?_⟩
  rintro position other ⟨otherKnown, begins⟩
  cases first : indexOf other.opener text with
  | none =>
      have inside := inside_of_prefix (opener_ne_nil otherKnown) begins
      exact absurd begins (indexOf_eq_none_iff.mp first position (by omega))
  | some earliest =>
      have bound := (foldl_earlierOpener_le found).2 other otherKnown earliest first
      refine bound.trans (Nat.not_lt.mp fun less => ?_)
      exact (indexOf_eq_some first).2 position less begins

theorem findEarliestEnvelopeOpener_eq_none (absent : findEarliestEnvelopeOpener text = none) :
    ∀ pattern, Known pattern → indexOf pattern.opener text = none := by
  intro pattern known
  cases occurs : indexOf pattern.opener text with
  | none => rfl
  | some index =>
      have some_ : (findEarliestEnvelopeOpener text).isSome = true :=
        foldl_earlierOpener_isSome.mpr (.inr ⟨pattern, known, by rw [occurs]; rfl⟩)
      rw [absent] at some_
      cases some_

theorem findEarliestEnvelopeOpener_isSome (opens : OpensAt text index pattern) :
    ∃ found, findEarliestEnvelopeOpener text = some found := by
  cases found : findEarliestEnvelopeOpener text with
  | some result => exact ⟨result, rfl⟩
  | none =>
      have absent := findEarliestEnvelopeOpener_eq_none found pattern opens.1
      have inside := inside_of_prefix (opener_ne_nil opens.1) opens.2
      exact absurd opens.2 (indexOf_eq_none_iff.mp absent index (by omega))

theorem foldl_max_heldLength (text : Text) (patterns : List TextToolProtocolEnvelopeDelimiter)
    (longest : Nat) :
    (∀ pattern ∈ patterns, heldLength pattern.opener text ≤
        patterns.foldl (fun longest pattern => max longest (heldLength pattern.opener text))
          longest) ∧
      longest ≤ patterns.foldl
        (fun longest pattern => max longest (heldLength pattern.opener text)) longest ∧
      (patterns.foldl (fun longest pattern => max longest (heldLength pattern.opener text))
          longest = longest ∨
        ∃ pattern ∈ patterns, patterns.foldl
          (fun longest pattern => max longest (heldLength pattern.opener text)) longest =
            heldLength pattern.opener text) := by
  induction patterns generalizing longest with
  | nil => simp
  | cons first patterns ih =>
      obtain ⟨each, least, reached⟩ := ih (max longest (heldLength first.opener text))
      refine ⟨?_, (Nat.le_max_left _ _).trans least, ?_⟩
      · exact List.forall_mem_cons.mpr ⟨(Nat.le_max_right _ _).trans least, each⟩
      · rcases reached with same | ⟨pattern, member, same⟩
        · rcases Nat.le_total (heldLength first.opener text) longest with less | more
          · rw [List.foldl_cons, same]
            exact .inl (Nat.max_eq_left less)
          · rw [List.foldl_cons, same]
            exact .inr ⟨first, List.mem_cons_self, Nat.max_eq_right more⟩
        · exact .inr ⟨pattern, List.mem_cons_of_mem _ member, same⟩

theorem heldLength_le_pending (known : Known pattern) (text : Text) :
    heldLength pattern.opener text ≤ longestPendingOpenerPrefixLength text :=
  (foldl_max_heldLength text TEXT_TOOL_PROTOCOL_ENVELOPE_DELIMITERS 0).1 pattern known

theorem pending_reached (text : Text) : longestPendingOpenerPrefixLength text = 0 ∨
    ∃ pattern, Known pattern ∧
      longestPendingOpenerPrefixLength text = heldLength pattern.opener text :=
  (foldl_max_heldLength text TEXT_TOOL_PROTOCOL_ENVELOPE_DELIMITERS 0).2.2

theorem pending_le (text : Text) : longestPendingOpenerPrefixLength text ≤ text.length := by
  rcases pending_reached text with zero | ⟨pattern, -, same⟩
  · omega
  · rw [same]
    exact heldLength_le _ _

theorem triggers_of_prefix (text : Text) {start : Text} (known : Known pattern)
    (nonempty : start ≠ []) (sub : start.Sublist text) (begins : start <+: pattern.opener) :
    TEXT_PROTOCOL_ENVELOPE_TRIGGER text = true := by
  cases start with
  | nil => exact absurd rfl nonempty
  | cons unit start =>
      obtain ⟨rest, same⟩ := begins
      have trigger := opener_triggers pattern known
      rw [← same] at trigger
      exact List.any_eq_true.mpr ⟨unit, sub.subset List.mem_cons_self, by simpa using trigger⟩

/-- Without a trigger there is neither an opener nor a beginning of one. -/
theorem absent_of_no_trigger (text : Text)
    (quiet : TEXT_PROTOCOL_ENVELOPE_TRIGGER text = false) :
    findEarliestEnvelopeOpener text = none ∧ longestPendingOpenerPrefixLength text = 0 := by
  constructor
  · cases found : findEarliestEnvelopeOpener text with
    | none => rfl
    | some earliest =>
        obtain ⟨⟨known, begins⟩, -⟩ := findEarliestEnvelopeOpener_eq_some found
        have loud := triggers_of_prefix text known (opener_ne_nil known)
          (begins.sublist.trans (List.drop_sublist _ _)) (List.prefix_refl _)
        rw [quiet] at loud
        cases loud
  · rcases pending_reached text with zero | ⟨pattern, known, same⟩
    · exact zero
    · by_contra positive
      have inside := heldLength_le pattern.opener text
      have loud := triggers_of_prefix text known (by
        rw [← List.length_pos_iff, List.length_drop]
        omega) (List.drop_sublist _ _) (heldLength_begins pattern.opener text)
      rw [quiet] at loud
      cases loud

theorem indexOf_nil {pattern : Text} (nonempty : pattern ≠ []) : indexOf pattern [] = none := by
  refine indexOf_eq_none_iff.mpr fun index _ begins => nonempty ?_
  simpa using begins

/-- The loop in an envelope. -/
theorem drain_envelope {closer : Text} (nonempty : closer ≠ []) (pending : Text) :
    drain (some closer) pending =
      match indexOf closer pending with
      | none => {
          visible := []
          closer := some closer
          pending := pending.drop (pending.length - heldLength closer pending)
          completed := 0 }
      | some index =>
          { drain none (pending.drop (index + closer.length)) with
            completed := (drain none (pending.drop (index + closer.length))).completed + 1 } := by
  rw [drain]
  split
  next empty =>
    subst empty
    rw [indexOf_nil nonempty]
    simp
  · rfl

/-- The loop in prose. -/
theorem drain_prose (pending : Text) :
    drain none pending =
      match findEarliestEnvelopeOpener pending with
      | none => {
          visible := pending.take (pending.length - longestPendingOpenerPrefixLength pending)
          closer := none
          pending := pending.drop (pending.length - longestPendingOpenerPrefixLength pending)
          completed := 0 }
      | some (index, pattern) =>
          { drain (some pattern.closer) (pending.drop (index + pattern.opener.length)) with
            visible := pending.take index ++
              (drain (some pattern.closer)
                (pending.drop (index + pattern.opener.length))).visible } := by
  rw [drain]
  split
  next empty =>
    subst empty
    obtain ⟨absent, zero⟩ := absent_of_no_trigger [] rfl
    rw [absent]
    simp
  · split
    next quiet =>
      obtain ⟨absent, zero⟩ := absent_of_no_trigger pending quiet
      rw [absent]
      simp [zero]
    · split
      next absent => rw [absent]
      next index pattern found => rw [found]

theorem drain_envelope_dead {closer front text : Text} (nonempty : closer ≠ [])
    (dead : ∀ index < front.length, Dead closer (front ++ text) index) :
    drain (some closer) (front ++ text) = drain (some closer) text := by
  rw [drain_envelope nonempty, drain_envelope nonempty, indexOf_append_dead nonempty dead,
    heldLength_append_dead nonempty dead]
  cases indexOf closer text with
  | none =>
      have inside := heldLength_le closer text
      simp only [Option.map_none, List.length_append, Nat.add_sub_assoc inside]
      rw [← List.drop_drop, List.drop_left]
  | some index =>
      simp only [Option.map_some, Nat.add_assoc]
      rw [← List.drop_drop, List.drop_left]

variable {front text : Text}

theorem foldl_earlierOpener_dead
    (known : ∀ pattern ∈ patterns, Known pattern)
    (dead : ∀ pattern, Known pattern → ∀ index < front.length,
      Dead pattern.opener (front ++ text) index)
    (best : Option (Nat × TextToolProtocolEnvelopeDelimiter)) :
    patterns.foldl (earlierOpener (front ++ text))
        (best.map fun found => (front.length + found.1, found.2)) =
      (patterns.foldl (earlierOpener text) best).map
        fun found => (front.length + found.1, found.2) := by
  induction patterns generalizing best with
  | nil => rfl
  | cons first patterns ih =>
      obtain ⟨firstKnown, rest⟩ := List.forall_mem_cons.mp known
      have shift := indexOf_append_dead (opener_ne_nil firstKnown) (dead first firstKnown)
      rw [List.foldl_cons, List.foldl_cons, ← ih rest]
      unfold earlierOpener
      rw [shift]
      cases indexOf first.opener text with
      | none => rfl
      | some index =>
          cases best with
          | none => rfl
          | some found =>
              simp only [Option.map_some]
              by_cases less : index < found.1
              · rw [if_pos less, if_pos (by omega)]
                rfl
              · rw [if_neg less, if_neg (by omega)]
                rfl

section

variable (dead : ∀ pattern, Known pattern → ∀ index < front.length, Dead pattern.opener (front ++ text) index)
include dead

theorem findEarliestEnvelopeOpener_dead :
    findEarliestEnvelopeOpener (front ++ text) =
      (findEarliestEnvelopeOpener text).map fun found => (front.length + found.1, found.2) :=
  foldl_earlierOpener_dead (fun _ => id) dead none

theorem pending_dead :
    longestPendingOpenerPrefixLength (front ++ text) = longestPendingOpenerPrefixLength text := by
  have each : ∀ pattern, Known pattern →
      heldLength pattern.opener (front ++ text) = heldLength pattern.opener text :=
    fun pattern known => heldLength_append_dead (opener_ne_nil known) (dead pattern known)
  refine Nat.le_antisymm ?_ ?_
  · rcases pending_reached (front ++ text) with zero | ⟨pattern, known, same⟩
    · omega
    · rw [same, each pattern known]
      exact heldLength_le_pending known text
  · rcases pending_reached text with zero | ⟨pattern, known, same⟩
    · omega
    · rw [same, ← each pattern known]
      exact heldLength_le_pending known _

theorem drain_prose_dead :
    drain none (front ++ text) =
      { drain none text with visible := front ++ (drain none text).visible } := by
  rw [drain_prose, drain_prose text, findEarliestEnvelopeOpener_dead dead, pending_dead dead]
  cases findEarliestEnvelopeOpener text with
  | none =>
      have inside := pending_le text
      simp only [Option.map_none, List.length_append, Nat.add_sub_assoc inside,
        List.take_length_add_append]
      rw [← List.drop_drop, List.drop_left]
  | some found =>
      simp only [Option.map_some, Nat.add_assoc, List.take_length_add_append]
      rw [← List.drop_drop, List.drop_left, List.append_assoc]

end

variable {first second : TextToolProtocolEnvelopeDelimiter}

/-- Where two openers begin at one index, what the longer one has more is dead for their closer. -/
theorem opened_nested (opens : OpensAt text index first) (also : OpensAt text index second)
    (begins : first.opener <+: second.opener) :
    first.closer = second.closer ∧
      ∃ rest, text.drop (index + first.opener.length) =
          rest ++ text.drop (index + second.opener.length) ∧
        ∀ position < rest.length,
          Dead first.closer (rest ++ text.drop (index + second.opener.length)) position := by
  obtain ⟨same, foreign⟩ := openers_nested first opens.1 second also.1
    (List.isPrefixOf_iff_prefix.mpr begins)
  obtain ⟨rest, extended⟩ := begins
  obtain ⟨tail, whole⟩ := also.2
  rw [← extended, List.drop_left] at foreign
  have after : text.drop (index + second.opener.length) = tail := by
    rw [← List.drop_drop, ← whole, List.drop_left]
  refine ⟨same, rest, ?_, fun position inside => ?_⟩
  · rw [after, ← List.drop_drop, ← whole, ← extended, List.append_assoc, List.drop_left]
  · have comes : (rest ++ tail).drop position =
        rest[position] :: (rest ++ tail).drop (position + 1) := by
      rw [List.drop_eq_getElem_cons (by rw [List.length_append]; omega),
        List.getElem_append_left inside]
    have other := foreign rest[position] (List.getElem_mem inside)
    rw [after, Dead, comes]
    constructor
    · intro starts
      cases closer : first.closer with
      | nil => exact closer_ne_nil opens.1 closer
      | cons unit units =>
          rw [closer, List.cons_prefix_cons] at starts
          rw [closer, ← starts.1] at other
          exact other List.mem_cons_self
    · exact fun starts => other (starts.subset List.mem_cons_self)

def afterFirst (closer text : Text) : Option Text :=
  (indexOf closer text).map fun index => text.drop (index + closer.length)

/-- Openers at one index lead to the same state. -/
theorem opened_alike (opens : OpensAt text index first) (also : OpensAt text index second) :
    drain (some first.closer) (text.drop (index + first.opener.length)) =
        drain (some second.closer) (text.drop (index + second.opener.length)) ∧
      afterFirst first.closer (text.drop (index + first.opener.length)) =
        afterFirst second.closer (text.drop (index + second.opener.length)) := by
  have nested : ∀ {first second : TextToolProtocolEnvelopeDelimiter}, OpensAt text index first →
      OpensAt text index second → first.opener <+: second.opener →
      drain (some first.closer) (text.drop (index + first.opener.length)) =
          drain (some second.closer) (text.drop (index + second.opener.length)) ∧
        afterFirst first.closer (text.drop (index + first.opener.length)) =
          afterFirst second.closer (text.drop (index + second.opener.length)) := by
    intro first second opens also begins
    obtain ⟨same, rest, comes, dead⟩ := opened_nested opens also begins
    have nonempty := closer_ne_nil opens.1
    rw [comes, ← same]
    refine ⟨drain_envelope_dead nonempty dead, ?_⟩
    unfold afterFirst
    rw [indexOf_append_dead nonempty dead, Option.map_map]
    congr 1
    funext position
    rw [Function.comp_apply, Nat.add_assoc, ← List.drop_drop, List.drop_left]
  rcases List.prefix_or_prefix_of_prefix opens.2 also.2 with less | more
  · exact nested opens also less
  · obtain ⟨drained, after⟩ := nested also opens more
    exact ⟨drained.symm, after.symm⟩

/-- What two parts of the loop leave together. -/
def Drained.more (first later : Drained) : Drained where
  visible := first.visible ++ later.visible
  closer := later.closer
  pending := later.pending
  completed := first.completed + later.completed

def Closes (closer : Option Text) : Prop :=
  ∀ text, closer = some text → ∃ pattern, Known pattern ∧ pattern.closer = text

/-- The first opener stays the first one when the text grows. -/
theorem findEarliestEnvelopeOpener_append (more : Text)
    (found : findEarliestEnvelopeOpener text = some (index, pattern)) :
    ∃ other, findEarliestEnvelopeOpener (text ++ more) = some (index, other) ∧
      OpensAt (text ++ more) index pattern := by
  obtain ⟨⟨known, begins⟩, first⟩ := findEarliestEnvelopeOpener_eq_some found
  have inside := inside_of_prefix (opener_ne_nil known) begins
  have opens : OpensAt (text ++ more) index pattern := by
    refine ⟨known, ?_⟩
    rw [List.drop_append_of_le_length (by omega)]
    exact begins.trans (List.prefix_append _ _)
  obtain ⟨⟨position, other⟩, earliest⟩ := findEarliestEnvelopeOpener_isSome opens
  obtain ⟨otherOpens, least⟩ := findEarliestEnvelopeOpener_eq_some earliest
  have bound := least index pattern opens
  have same : position = index := by
    refine Nat.le_antisymm bound (Nat.not_lt.mp fun less => ?_)
    rcases Nat.lt_or_ge text.length (position + other.opener.length) with outside | within
    · -- The earlier opener would reach over the beginning of the found one.
      have apart := openers_apart other otherOpens.1 pattern known (index - position) (by omega)
        (by omega)
      obtain ⟨rest, whole⟩ := otherOpens.2
      have both : other.opener.drop (index - position) <+: (text ++ more).drop index := by
        refine ⟨rest, ?_⟩
        rw [← List.drop_append_of_le_length (by omega), whole, List.drop_drop]
        congr 1
        omega
      rcases List.prefix_or_prefix_of_prefix both opens.2 with shorter | longer
      · rw [List.isPrefixOf_iff_prefix.mpr shorter] at apart
        cases apart.1
      · rw [List.isPrefixOf_iff_prefix.mpr longer] at apart
        cases apart.2
    · have earlier : OpensAt text position other := by
        refine ⟨otherOpens.1, ?_⟩
        have begins := otherOpens.2
        rw [List.drop_append_of_le_length (by omega)] at begins
        refine List.prefix_of_prefix_length_le begins (List.prefix_append _ _) ?_
        rw [List.length_drop]
        omega
      exact absurd (first position other earlier) (Nat.not_le.mpr less)
  exact ⟨other, by rw [earliest, same], opens⟩

/-- A text may be given to the loop in two parts. -/
theorem drain_append (closer : Option Text) (closes : Closes closer) (text more : Text) :
    drain closer (text ++ more) =
      (drain closer text).more
        (drain (drain closer text).closer ((drain closer text).pending ++ more)) := by
  induction length : text.length using Nat.strong_induction_on generalizing closer text with
  | _ size ih =>
      cases closer with
      | some closer =>
          obtain ⟨pattern, known, rfl⟩ := closes closer rfl
          have nonempty := closer_ne_nil known
          cases found : indexOf pattern.closer text with
          | some index =>
              have inside := inside_of_prefix nonempty (indexOf_eq_some found).1
              have positive := List.length_pos_iff.mpr nonempty
              have later := ih (text.drop (index + pattern.closer.length)).length (by
                rw [List.length_drop]
                omega) none nofun (text.drop (index + pattern.closer.length)) rfl
              rw [drain_envelope nonempty, drain_envelope nonempty text,
                indexOf_append nonempty found, found]
              simp only [List.drop_append_of_le_length inside, later, Drained.more]
              congr 1
              omega
          | none =>
              have parted := List.take_append_drop
                (text.length - heldLength pattern.closer text) text
              have drained : drain (some pattern.closer) text = {
                  visible := []
                  closer := some pattern.closer
                  pending := text.drop (text.length - heldLength pattern.closer text)
                  completed := 0 } := by
                rw [drain_envelope nonempty, found]
              rw [drained]
              conv_lhs => rw [← parted, List.append_assoc]
              rw [drain_envelope_dead nonempty]
              · simp [Drained.more]
              · intro index before
                rw [List.length_take] at before
                rw [← List.append_assoc, parted]
                exact (dead_of_indexOf_eq_none found (by omega)).append (by omega)
      | none =>
          cases found : findEarliestEnvelopeOpener text with
          | some earliest =>
              obtain ⟨index, pattern⟩ := earliest
              obtain ⟨⟨known, begins⟩, -⟩ := findEarliestEnvelopeOpener_eq_some found
              have inside := inside_of_prefix (opener_ne_nil known) begins
              have positive := List.length_pos_iff.mpr (opener_ne_nil known)
              obtain ⟨other, grown, opens⟩ := findEarliestEnvelopeOpener_append more found
              have agree := opened_alike opens (findEarliestEnvelopeOpener_eq_some grown).1
              have later := ih (text.drop (index + pattern.opener.length)).length (by
                rw [List.length_drop]
                omega) (some pattern.closer) (fun closer same => by
                  cases same
                  exact ⟨pattern, known, rfl⟩) (text.drop (index + pattern.opener.length)) rfl
              rw [drain_prose, drain_prose text, grown, found]
              simp only [← agree.1, List.drop_append_of_le_length inside, later, Drained.more,
                List.append_assoc]
              rw [List.take_append_of_le_length (by omega)]
          | none =>
              have absent := findEarliestEnvelopeOpener_eq_none found
              have parted := List.take_append_drop
                (text.length - longestPendingOpenerPrefixLength text) text
              have drained : drain none text = {
                  visible := text.take (text.length - longestPendingOpenerPrefixLength text)
                  closer := none
                  pending := text.drop (text.length - longestPendingOpenerPrefixLength text)
                  completed := 0 } := by
                rw [drain_prose, found]
              rw [drained]
              conv_lhs => rw [← parted, List.append_assoc]
              rw [drain_prose_dead]
              · simp [Drained.more]
              · intro pattern known index before
                rw [List.length_take] at before
                rw [← List.append_assoc, parted]
                have held := heldLength_le_pending known text
                exact (dead_of_indexOf_eq_none (absent pattern known) (by omega)).append (by omega)

structure TextProtocolLiveFilter.Seen (filter : TextProtocolLiveFilter) (text : Text) : Prop where
  pending : filter.pending = (drain none text).pending
  closer : filter.closer = (drain none text).closer
  rawLength : filter.rawLength = text.length
  visible : filter.visible = (drain none text).visible
  completed : filter.completedEnvelopeCount = (drain none text).completed

variable (deltas : List Text)

namespace TextProtocolLiveFilter

theorem seen_new : new.Seen [] := by
  obtain ⟨absent, zero⟩ := absent_of_no_trigger [] rfl
  have drained : drain none [] = {
      visible := []
      closer := none
      pending := []
      completed := 0 } := by
    rw [drain_prose, absent]
    rfl
  refine ⟨?_, ?_, rfl, ?_, ?_⟩
  all_goals
    rw [drained]
    rfl

theorem Seen.advance {filter : TextProtocolLiveFilter} (seen : filter.Seen text) (delta : Text) :
    (filter.advance delta).Seen (text ++ delta) := by
  by_cases empty : delta.length = 0
  · obtain rfl := List.length_eq_zero_iff.mp empty
    rw [List.append_nil]
    exact ⟨seen.pending, seen.closer, seen.rawLength, seen.visible, seen.completed⟩
  · have parts := drain_append none nofun text delta
    have moved : filter.advance delta = {
        pending := (drain filter.closer (filter.pending ++ delta)).pending
        closer := (drain filter.closer (filter.pending ++ delta)).closer
        rawLength := filter.rawLength + delta.length
        visibleText := filter.visibleText ++
          (drain filter.closer (filter.pending ++ delta)).visible
        completedEnvelopes := filter.completedEnvelopes +
          (drain filter.closer (filter.pending ++ delta)).completed } := by
      rw [TextProtocolLiveFilter.advance, consume, if_neg empty]
    rw [seen.closer, seen.pending] at moved
    constructor
    · rw [moved, parts]
      rfl
    · rw [moved, parts]
      rfl
    · rw [moved, List.length_append, ← seen.rawLength]
    · rw [moved, parts, Drained.more, ← seen.visible]
      rfl
    · rw [moved, parts, Drained.more, ← seen.completed]
      rfl

theorem seen_foldl : (deltas.foldl advance new).Seen deltas.flatten := by
  induction deltas using List.reverseRecOn with
  | nil => exact seen_new
  | append_singleton deltas delta ih =>
      rw [List.foldl_concat, List.flatten_concat]
      exact ih.advance delta

end TextProtocolLiveFilter

/-- A text as it reads: its prose around the envelopes. -/
structure Prose where
  first : Text
  later : List Text
  /-- Whether the last envelope is not closed. -/
  opened : Bool
  deriving DecidableEq

/-- The text without its envelopes. -/
def Prose.shown (prose : Prose) : Text := prose.first ++ prose.later.flatten

/-- The prose after the last closed envelope. -/
def Prose.last (prose : Prose) : Text := prose.later.getLast?.getD prose.first

/-- The delimiters of the envelope that begins the text. -/
def opensWith (text : Text) : Option TextToolProtocolEnvelopeDelimiter :=
  TEXT_TOOL_PROTOCOL_ENVELOPE_DELIMITERS.find? fun pattern => pattern.opener.isPrefixOf text

theorem length_afterFirst {closer text rest : Text} (found : afterFirst closer text = some rest) :
    rest.length ≤ text.length := by
  obtain ⟨index, -, rfl⟩ := Option.map_eq_some_iff.mp found
  rw [List.length_drop]
  omega

theorem opensWith_eq_some (found : opensWith text = some pattern) : OpensAt text 0 pattern := by
  have begins := List.find?_some found
  exact ⟨List.mem_of_find?_eq_some found, List.isPrefixOf_iff_prefix.mp begins⟩

/-- Every envelope runs from an opener to the end of the first closer after it, or to the end of
the text. -/
def split (text : Text) : Prose :=
  match text with
  | [] => {
      first := []
      later := []
      opened := false }
  | unit :: rest =>
      match _begins : opensWith (unit :: rest) with
      | some pattern =>
          match _closes : afterFirst pattern.closer
              ((unit :: rest).drop pattern.opener.length) with
          | some after => {
              first := []
              later := (split after).first :: (split after).later
              opened := (split after).opened }
          | none => {
              first := []
              later := []
              opened := true }
      | none => { split rest with first := unit :: (split rest).first }
termination_by text.length
decreasing_by
  all_goals try simp
  all_goals
    have positive := List.length_pos_iff.mpr (opener_ne_nil (opensWith_eq_some _begins).1)
    have shorter := length_afterFirst _closes
    rw [List.length_drop] at shorter
    simp only [List.length_cons] at shorter ⊢
    omega

theorem split_nil : split [] = {
    first := []
    later := []
    opened := false } := by
  rw [split]

/-- Prose before the first opener. -/
theorem split_prose (front text : Text)
    (quiet : ∀ index < front.length, ∀ pattern, ¬OpensAt (front ++ text) index pattern) :
    split (front ++ text) = { split text with first := front ++ (split text).first } := by
  induction front with
  | nil => rfl
  | cons unit front ih =>
      have rest := ih fun index inside pattern opens =>
        quiet (index + 1) (by simpa using inside) pattern ⟨opens.1, by simpa using opens.2⟩
      have ordinary : opensWith (unit :: (front ++ text)) = none := by
        cases found : opensWith (unit :: (front ++ text)) with
        | none => rfl
        | some pattern => exact absurd (opensWith_eq_some found) (quiet 0 (by simp) pattern)
      rw [List.cons_append, split]
      split
      next pattern begins => simp [ordinary] at begins
      · rw [rest]
        rfl

theorem split_of_absent (absent : findEarliestEnvelopeOpener text = none) :
    split text = {
      first := text
      later := []
      opened := false } := by
  have missing := findEarliestEnvelopeOpener_eq_none absent
  have quiet := split_prose text [] fun index inside pattern opens => by
    rw [List.append_nil] at opens
    exact indexOf_eq_none_iff.mp (missing pattern opens.1) index inside.le opens.2
  rw [List.append_nil, split_nil, List.append_nil] at quiet
  exact quiet

/-- A text that begins with an opener. -/
theorem split_envelope (opens : OpensAt text 0 pattern) :
    split text =
      match afterFirst pattern.closer (text.drop pattern.opener.length) with
      | some after => {
          first := []
          later := (split after).first :: (split after).later
          opened := (split after).opened }
      | none => {
          first := []
          later := []
          opened := true } := by
  cases text with
  | nil =>
      have begins := opens.2
      rw [List.drop_nil, List.prefix_nil] at begins
      exact absurd begins (opener_ne_nil opens.1)
  | cons unit rest =>
      rw [split]
      split
      next other begins =>
        have alike := (opened_alike opens (opensWith_eq_some begins)).2
        rw [Nat.zero_add, Nat.zero_add] at alike
        rw [alike]
        split
        next after closes => simp [closes]
        next closes => simp [closes]
      next absent =>
        have begins : pattern.opener.isPrefixOf (unit :: rest) = true :=
          List.isPrefixOf_iff_prefix.mpr opens.2
        rw [opensWith, List.find?_eq_none] at absent
        exact absurd begins (absent pattern opens.1)

structure Leaves (text : Text) (drained : Drained) : Prop where
  completed : drained.completed = (split text).later.length
  opened : (split text).opened = true → drained.visible = (split text).shown
  prose : (split text).opened = false → drained.visible ++ drained.pending = (split text).shown ∧
    drained.pending.length = longestPendingOpenerPrefixLength (split text).last

/-- The loop shows the prose without a held end. -/
theorem leaves_drain (text : Text) : Leaves text (drain none text) := by
  induction length : text.length using Nat.strong_induction_on generalizing text with
  | _ size ih =>
      cases found : findEarliestEnvelopeOpener text with
      | none =>
          have quiet := split_of_absent found
          have inside := pending_le text
          rw [drain_prose, found]
          refine ⟨by rw [quiet]; rfl, fun opened => ?_, fun _ => ?_⟩
          · rw [quiet] at opened
            cases opened
          · rw [quiet]
            simp only [Prose.shown, Prose.last, List.take_append_drop, List.flatten_nil,
              List.append_nil, List.getLast?_nil, Option.getD_none, List.length_drop, true_and]
            omega
      | some earliest =>
          obtain ⟨index, pattern⟩ := earliest
          obtain ⟨opens, first⟩ := findEarliestEnvelopeOpener_eq_some found
          have inside := inside_of_prefix (opener_ne_nil opens.1) opens.2
          have positive := List.length_pos_iff.mpr (opener_ne_nil opens.1)
          have here : OpensAt (text.drop index) 0 pattern := ⟨opens.1, opens.2⟩
          have quiet := split_prose (text.take index) (text.drop index)
            fun position before other begins => by
              rw [List.take_append_drop] at begins
              rw [List.length_take] at before
              have := first position other begins
              omega
          rw [List.take_append_drop, split_envelope here, List.drop_drop, afterFirst] at quiet
          rw [drain_prose, found]
          simp only [drain_envelope (closer_ne_nil opens.1)]
          cases closes : indexOf pattern.closer (text.drop (index + pattern.opener.length)) with
          | none =>
              rw [closes] at quiet
              refine ⟨by rw [quiet]; rfl, fun _ => ?_, fun prose => ?_⟩
              · rw [quiet]
                simp [Prose.shown]
              · rw [quiet] at prose
                cases prose
          | some position =>
              rw [closes] at quiet
              simp only [Option.map_some] at quiet
              have rest := ih ((text.drop (index + pattern.opener.length)).drop
                (position + pattern.closer.length)).length (by
                  simp only [List.length_drop]
                  omega) _ rfl
              simp only
              generalize (text.drop (index + pattern.opener.length)).drop
                (position + pattern.closer.length) = after at quiet rest ⊢
              refine ⟨?_, fun opened => ?_, fun prose => ?_⟩
              · rw [quiet]
                simp [rest.completed]
              · rw [quiet] at opened ⊢
                simp [Prose.shown, rest.opened opened]
              · rw [quiet] at prose ⊢
                obtain ⟨shown, held⟩ := rest.prose prose
                refine ⟨?_, ?_⟩
                · simp only [List.append_assoc, shown]
                  simp [Prose.shown]
                · rw [held]
                  simp [Prose.last, List.getLast?_cons]

/-- The filter that was given the deltas and then the whole text. -/
def filtered (deltas : List Text) (text : Text) : TextProtocolLiveFilter :=
  (deltas.foldl TextProtocolLiveFilter.advance .new).finish text

/-- What is promised of a text that is cut into deltas. -/
structure Faithful (deltas : List Text) : Prop where
  /-- The cuts do not matter. -/
  visible : (filtered deltas deltas.flatten).visible =
    (filtered [deltas.flatten] deltas.flatten).visible
  completed : (filtered deltas deltas.flatten).completedEnvelopeCount =
    (filtered [deltas.flatten] deltas.flatten).completedEnvelopeCount
  grows : ∀ count, ((deltas.take count).foldl TextProtocolLiveFilter.advance .new).visible <+:
    (filtered deltas deltas.flatten).visible
  shown : (filtered deltas deltas.flatten).visible = (split deltas.flatten).shown

/-- A text ends in prose, and the prose ends like an opener begins. -/
def EndsLikeOpener (text : Text) : Prop :=
  (split text).opened = false ∧ ∃ pattern, Known pattern ∧ ∃ held ≠ [],
    held <:+ (split text).last ∧ held <+: pattern.opener ∧ held ≠ pattern.opener

theorem pending_ne_zero_iff : longestPendingOpenerPrefixLength text ≠ 0 ↔
    ∃ pattern, Known pattern ∧ ∃ held ≠ [],
      held <:+ text ∧ held <+: pattern.opener ∧ held ≠ pattern.opener := by
  constructor
  · intro positive
    obtain ⟨pattern, known, same⟩ := (pending_reached text).resolve_left positive
    have inside := heldLength_le pattern.opener text
    have length : (text.drop (text.length - heldLength pattern.opener text)).length =
        heldLength pattern.opener text := by
      rw [List.length_drop]
      omega
    refine ⟨pattern, known, text.drop (text.length - heldLength pattern.opener text), ?_,
      List.drop_suffix _ _, heldLength_begins _ _, fun whole => ?_⟩
    · rw [← List.length_pos_iff]
      omega
    · have proper := heldLength_lt (opener_ne_nil known) text
      rw [whole] at length
      omega
  · rintro ⟨pattern, known, held, nonempty, ending, begins, proper⟩ zero
    have positive := List.length_pos_iff.mpr nonempty
    have shorter : held.length < pattern.opener.length :=
      lt_of_le_of_ne begins.length_le fun same => proper (begins.eq_of_length same)
    have least := le_heldLength ending.length_le shorter (by
      obtain ⟨front, whole⟩ := ending
      rw [← whole, List.length_append, Nat.add_sub_cancel, List.drop_left]
      exact begins)
    have bound := heldLength_le_pending known text
    omega

theorem filtered_seen : (filtered deltas deltas.flatten).Seen deltas.flatten := by
  have seen := TextProtocolLiveFilter.seen_foldl deltas
  rw [filtered, TextProtocolLiveFilter.finish, if_neg (not_not.mpr seen.rawLength.symm)]
  exact seen

theorem shown_iff :
    (filtered deltas deltas.flatten).visible = (split deltas.flatten).shown ↔
      ¬EndsLikeOpener deltas.flatten := by
  have leaves := leaves_drain deltas.flatten
  rw [(filtered_seen deltas).visible]
  cases opened : (split deltas.flatten).opened with
  | true =>
      simp only [leaves.opened opened, true_iff]
      rintro ⟨prose, -⟩
      rw [opened] at prose
      cases prose
  | false =>
      obtain ⟨shown, held⟩ := leaves.prose opened
      rw [← shown, EndsLikeOpener, ← pending_ne_zero_iff, ← held]
      simp [opened]

/-- However a text is cut, the filter shows its prose in the end and never takes back what it has
shown, unless the text ends in the beginning of an opener, which stays held back. -/
theorem live_text_is_faithful_iff (deltas : List Text) :
    Faithful deltas ↔ ¬EndsLikeOpener deltas.flatten := by
  have seen := filtered_seen deltas
  have whole := filtered_seen [deltas.flatten]
  rw [List.flatten_singleton] at whole
  refine ⟨fun faithful => (shown_iff deltas).mp faithful.shown, fun prose => ?_⟩
  refine ⟨seen.visible.trans whole.visible.symm, seen.completed.trans whole.completed.symm, ?_,
    (shown_iff deltas).mpr prose⟩
  intro count
  have earlier := (TextProtocolLiveFilter.seen_foldl (deltas.take count)).visible
  rw [earlier, seen.visible]
  conv_rhs => rw [← List.take_append_drop count deltas, List.flatten_append]
  rw [drain_append none nofun]
  exact List.prefix_append _ _

/-- A text that ends in a sign of comparison loses it. -/
theorem held_sign_is_lost : ¬∀ deltas, Faithful deltas := by
  intro faithful
  refine (shown_iff [units "a <"]).mp (faithful _).shown ?_
  have absent : findEarliestEnvelopeOpener (units "a <") = none := by decide +kernel
  rw [List.flatten_singleton, EndsLikeOpener, split_of_absent absent]
  exact ⟨rfl, tagDelimiter PI_CALL_TAG, by decide +kernel, units "<", by decide +kernel,
    ⟨units "a ", by decide +kernel⟩, ⟨units "pi:call", by decide +kernel⟩, by decide +kernel⟩

end PiAdaptative.TextProtocol
