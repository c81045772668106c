import PiAdaptative.Foundations.Lines
import PiAdaptative.SourceEdits.EditPlans

/-!
# Normalized texts

The fuzzy match compares texts in which every code point is replaced by itself and the trailing
blanks of each line are removed.  Lines are normalized one by one; inside a line, what is removed
behind a beginning depends on what follows it.
-/

namespace PiAdaptative.SourceEdits

open TextProtocol (Text isSpace)
open Lines

/-- The compatibility normalization replaces code points one by one and keeps the line feeds. -/
structure PerCharacter (host : EditHost) (map : Text → Text) : Prop where
  each : ∀ text, host.nfkc text = (codePoints text).flatMap map
  feed : map [10] = [10]
  other : ∀ point, 10 ∉ point → 10 ∉ map point

theorem codePoints_pair {unit next : UInt16}
    (pair : (isHighSurrogate unit && isLowSurrogate next) = true) (rest : Text) :
    codePoints (unit :: next :: rest) = [unit, next] :: codePoints rest := by
  rw [codePoints, if_pos pair]

variable {unit : UInt16}

theorem codePoints_single {rest : Text}
    (other : ∀ next ∈ rest.head?, ¬(isHighSurrogate unit && isLowSurrogate next) = true) :
    codePoints (unit :: rest) = [unit] :: codePoints rest := by
  cases rest with
  | nil => rfl
  | cons next rest => rw [codePoints, if_neg (other next rfl)]

theorem codePoints_feed (rest : Text) : codePoints (10 :: rest) = [10] :: codePoints rest :=
  codePoints_single fun _ _ => by simp [isHighSurrogate]

variable (text : Text)

theorem flatten_codePoints : (codePoints text).flatten = text := by
  induction text using codePoints.induct with
  | case1 => rfl
  | case2 unit => rfl
  | case3 unit next rest pair ih => rw [codePoints_pair pair, List.flatten_cons, ih]; rfl
  | case4 unit next rest other ih =>
      rw [codePoints, if_neg other, List.flatten_cons, ih]
      rfl

variable {first second : Text}

theorem codePoints_append (apart : ∀ unit ∈ second.head?, isLowSurrogate unit = false) :
    codePoints (first ++ second) = codePoints first ++ codePoints second := by
  induction first using codePoints.induct with
  | case1 => rfl
  | case2 unit =>
      rw [List.singleton_append, codePoints_single fun next member => by simp [apart next member]]
      rfl
  | case3 unit next rest pair ih =>
      rw [codePoints_pair pair, List.cons_append, List.cons_append, codePoints_pair pair, ih,
        List.cons_append]
  | case4 unit next rest other ih =>
      rw [List.cons_append, List.cons_append, codePoints, if_neg other, codePoints, if_neg other,
        ← List.cons_append, ih, List.cons_append]

/-- A beginning made of whole code points has these code points. -/
theorem codePoints_take (count : Nat) :
    codePoints ((codePoints text).take count).flatten = (codePoints text).take count := by
  induction text using codePoints.induct generalizing count with
  | case1 => simp [codePoints]
  | case2 unit => cases count <;> simp [codePoints]
  | case3 unit next rest pair ih =>
      cases count with
      | zero => rfl
      | succ count =>
          rw [codePoints_pair pair, List.take_succ_cons, List.flatten_cons, List.cons_append,
            List.singleton_append, codePoints_pair pair, ih]
  | case4 unit next rest other ih =>
      cases count with
      | zero => rfl
      | succ count =>
          have inside : ((codePoints (next :: rest)).take count).flatten <+: next :: rest := by
            have whole := (List.take_prefix count (codePoints (next :: rest))).flatten
            rwa [flatten_codePoints] at whole
          rw [codePoints, if_neg other, List.take_succ_cons, List.flatten_cons,
            List.singleton_append, codePoints_single fun first member => ?_, ih]
          obtain ⟨others, same⟩ := List.head?_eq_some_iff.mp member
          rw [same] at inside
          rwa [(List.cons_prefix_cons.mp inside).1]

/-- What follows whole code points has the code points that follow. -/
theorem codePoints_drop (count : Nat) :
    codePoints ((codePoints text).drop count).flatten = (codePoints text).drop count := by
  induction text using codePoints.induct generalizing count with
  | case1 => simp [codePoints]
  | case2 unit => cases count <;> simp [codePoints]
  | case3 unit next rest pair ih =>
      cases count with
      | zero => rw [List.drop_zero, flatten_codePoints]
      | succ count => rw [codePoints_pair pair, List.drop_succ_cons, ih]
  | case4 unit next rest other ih =>
      cases count with
      | zero => rw [List.drop_zero, flatten_codePoints]
      | succ count => rw [codePoints, if_neg other, List.drop_succ_cons, ih]

theorem stripTrailing_cons (unit : UInt16) (rest : Text) :
    stripTrailing (unit :: rest) =
      if isBlank unit && ((stripTrailing rest).headD 10 == 10) then stripTrailing rest
      else unit :: stripTrailing rest := rfl

theorem stripTrailing_append_feed (first second : Text) :
    stripTrailing (first ++ 10 :: second) = stripTrailing first ++ 10 :: stripTrailing second := by
  induction first with
  | nil => rw [List.nil_append, stripTrailing_cons, if_neg (by simp [isBlank])]; rfl
  | cons unit first ih =>
      have next : (stripTrailing first ++ 10 :: stripTrailing second).headD 10 =
          (stripTrailing first).headD 10 := by
        cases stripTrailing first <;> rfl
      rw [List.cons_append, stripTrailing_cons, ih, next, stripTrailing_cons]
      split <;> rfl

theorem not_mem_stripTrailing {text : Text} (free : unit ∉ text) : unit ∉ stripTrailing text := by
  induction text with
  | nil => exact free
  | cons first rest ih =>
      have later : unit ∉ stripTrailing rest := ih fun member => free (List.mem_cons_of_mem _ member)
      rw [stripTrailing_cons]
      split
      · exact later
      · intro member
        rcases List.mem_cons.mp member with rfl | inRest
        · exact free List.mem_cons_self
        · exact later inRest

theorem stripTrailing_cons_of_free {rest : Text} (free : 10 ∉ rest) :
    stripTrailing (unit :: rest) =
      if isBlank unit ∧ stripTrailing rest = [] then [] else unit :: stripTrailing rest := by
  rw [stripTrailing_cons]
  cases left : stripTrailing rest with
  | nil => simp
  | cons next others =>
      have other : next ≠ 10 := by
        rintro rfl
        exact not_mem_stripTrailing free (left ▸ List.mem_cons_self)
      simp [other]

variable {line : Text}

theorem stripTrailing_begins (free : 10 ∉ line) : stripTrailing line <+: line := by
  induction line with
  | nil => exact List.prefix_refl _
  | cons unit rest ih =>
      have later : 10 ∉ rest := fun member => free (List.mem_cons_of_mem _ member)
      rw [stripTrailing_cons_of_free later]
      split
      · exact List.nil_prefix
      · exact List.cons_prefix_cons.mpr ⟨rfl, ih later⟩

/-- What is removed behind a beginning depends on what follows it on the line. -/
theorem stripTrailing_append (free : 10 ∉ first ++ second) :
    stripTrailing (first ++ second) =
      if stripTrailing second = [] then stripTrailing first else first ++ stripTrailing second := by
  induction first with
  | nil =>
      split
      next empty => rw [List.nil_append, empty]; rfl
      · rfl
  | cons unit first ih =>
      have later : 10 ∉ first ++ second := fun member => free (List.mem_cons_of_mem _ member)
      have own : 10 ∉ first := fun member => later (List.mem_append_left _ member)
      rw [List.cons_append, stripTrailing_cons_of_free later, ih later,
        stripTrailing_cons_of_free own]
      by_cases empty : stripTrailing second = []
      · rw [if_pos empty, if_pos empty]
      · rw [if_neg empty, if_neg empty, if_neg fun both => empty (List.append_eq_nil_iff.mp both.2).2,
          List.cons_append]

theorem stripTrailing_begins_append (free : 10 ∉ first ++ second) :
    stripTrailing first <+: stripTrailing (first ++ second) := by
  rw [stripTrailing_append free]
  split
  · exact List.prefix_refl _
  · exact (stripTrailing_begins fun member => free (List.mem_append_left _ member)).trans
      (List.prefix_append _ _)

theorem plainUnit_eq_feed : plainUnit unit = 10 ↔ unit = 10 := by
  unfold plainUnit
  constructor
  · intro same
    split at same
    · cases same
    · split at same
      · cases same
      · split at same
        · cases same
        · split at same
          · cases same
          · exact same
  · rintro rfl
    rfl

theorem perCharacter_plainHost : PerCharacter plainHost id where
  each text := by
    rw [List.flatMap_id]
    exact (flatten_codePoints text).symm
  feed := rfl
  other _ free := free

def pointUnits (map : Text → Text) (point : Text) : Text := (map point).map plainUnit

namespace PerCharacter

variable {host : EditHost} {map : Text → Text} (perCharacter : PerCharacter host map)

include perCharacter

theorem characters_eq (text : Text) :
    normalizeFuzzyCharacters host text = (codePoints text).flatMap (pointUnits map) := by
  unfold normalizeFuzzyCharacters pointUnits
  rw [perCharacter.each, List.map_flatMap]

theorem characters_nil : normalizeFuzzyCharacters host [] = [] := by
  rw [perCharacter.characters_eq]
  rfl

theorem characters_append_feed (first second : Text) :
    normalizeFuzzyCharacters host (first ++ 10 :: second) =
      normalizeFuzzyCharacters host first ++ 10 :: normalizeFuzzyCharacters host second := by
  have apart : ∀ unit ∈ (10 :: second).head?, isLowSurrogate unit = false := by
    rintro _ ⟨⟩
    decide
  have feed : pointUnits map [10] = [10] := by
    unfold pointUnits
    rw [perCharacter.feed]
    rfl
  rw [perCharacter.characters_eq, perCharacter.characters_eq, perCharacter.characters_eq,
    codePoints_append apart, codePoints_feed, List.flatMap_append, List.flatMap_cons, feed]
  rfl

theorem characters_free (free : 10 ∉ line) : 10 ∉ normalizeFuzzyCharacters host line := by
  rw [perCharacter.characters_eq]
  intro member
  obtain ⟨point, inLine, inUnits⟩ := List.mem_flatMap.mp member
  obtain ⟨unit, inMap, same⟩ := List.mem_map.mp inUnits
  rw [plainUnit_eq_feed] at same
  subst same
  refine perCharacter.other point (fun feed => free ?_) inMap
  rw [← flatten_codePoints line]
  exact List.mem_flatten.mpr ⟨point, inLine, feed⟩

theorem normalize_append_feed (first second : Text) :
    normalizeForFuzzyMatch host (first ++ 10 :: second) =
      normalizeForFuzzyMatch host first ++ 10 :: normalizeForFuzzyMatch host second := by
  unfold normalizeForFuzzyMatch
  rw [perCharacter.characters_append_feed, stripTrailing_append_feed]

theorem normalize_nil : normalizeForFuzzyMatch host [] = [] := by
  unfold normalizeForFuzzyMatch
  rw [perCharacter.characters_nil]
  rfl

theorem normalize_free (free : 10 ∉ line) : 10 ∉ normalizeForFuzzyMatch host line :=
  not_mem_stripTrailing (perCharacter.characters_free free)

theorem normalize_closedLines_append (lines : List Text) (rest : Text) :
    normalizeForFuzzyMatch host (closedLines 10 lines ++ rest) =
      closedLines 10 (lines.map (normalizeForFuzzyMatch host)) ++
        normalizeForFuzzyMatch host rest := by
  induction lines with
  | nil => rfl
  | cons line lines ih =>
      rw [closedLines_cons, List.append_assoc, List.cons_append, perCharacter.normalize_append_feed,
        ih, List.map_cons, closedLines_cons, List.append_assoc, List.cons_append]

theorem normalize_unlines {lines : List Text} (nonempty : lines ≠ []) :
    normalizeForFuzzyMatch host (unlines 10 lines) =
      unlines 10 (lines.map (normalizeForFuzzyMatch host)) := by
  induction lines with
  | nil => exact absurd rfl nonempty
  | cons line rest ih =>
      cases rest with
      | nil => rw [unlines_singleton, List.map_singleton, unlines_singleton]
      | cons next rest =>
          rw [unlines_cons_cons, perCharacter.normalize_append_feed, ih (by simp), List.map_cons,
            List.map_cons, List.map_cons, unlines_cons_cons]

/-- The lines of a normalized text are the normalized lines of the text. -/
theorem splitOn_normalize (text : Text) :
    (normalizeForFuzzyMatch host text).splitOn 10 =
      (text.splitOn 10).map (normalizeForFuzzyMatch host) := by
  have nonempty : text.splitOn 10 ≠ [] := List.splitOnP_ne_nil _ _
  calc (normalizeForFuzzyMatch host text).splitOn 10
      = (normalizeForFuzzyMatch host (unlines 10 (text.splitOn 10))).splitOn 10 := by
        rw [unlines_splitOn]
    _ = (unlines 10 ((text.splitOn 10).map (normalizeForFuzzyMatch host))).splitOn 10 := by
        rw [perCharacter.normalize_unlines nonempty]
    _ = (text.splitOn 10).map (normalizeForFuzzyMatch host) := by
        refine List.splitOn_intercalate 10 (fun line member => ?_) (by simp)
        obtain ⟨source, inText, rfl⟩ := List.mem_map.mp member
        exact perCharacter.normalize_free (not_mem_of_mem_splitOn inText)

end PerCharacter

end PiAdaptative.SourceEdits
