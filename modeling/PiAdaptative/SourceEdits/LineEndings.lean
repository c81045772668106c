import Mathlib.Data.List.Chain
import PiAdaptative.TextProtocol.Envelopes

/-!
# Line endings

A source text is a list of chunks, one for each unit of its LF-normalized form: a line ending or a
single unit.  Chunks put side by side are read back as they are unless a lone carriage return comes
to stand before a line feed.
-/

namespace PiAdaptative.SourceEdits

open TextProtocol (Text)

def normalizeToLF : Text → Text
  | 13 :: 10 :: rest => 10 :: normalizeToLF rest
  | 13 :: rest => 10 :: normalizeToLF rest
  | unit :: rest => unit :: normalizeToLF rest
  | [] => []

/-- The matches of `/\r\n|\r|\n/g`. -/
def lineEndings : Text → List Text
  | 13 :: 10 :: rest => [13, 10] :: lineEndings rest
  | 13 :: rest => [13] :: lineEndings rest
  | 10 :: rest => [10] :: lineEndings rest
  | _ :: rest => lineEndings rest
  | [] => []

/-- The units and line endings of a text. -/
def chunks : Text → List Text
  | 13 :: 10 :: rest => [13, 10] :: chunks rest
  | unit :: rest => [unit] :: chunks rest
  | [] => []

/-- Whether a chunk is a line ending. -/
def isEnding (chunk : Text) : Bool := [[13, 10], [13], [10]].contains chunk

/-- The LF-normalized form of a chunk. -/
def chunkUnit (chunk : Text) : UInt16 :=
  if isEnding chunk then 10 else chunk.headD 0

/-- A line ending or a single unit. -/
def IsChunk (chunk : Text) : Prop := chunk = [13, 10] ∨ ∃ unit, chunk = [unit]

/-- A lone carriage return does not stand directly before a line feed. -/
def Apart (first second : Text) : Prop := ¬(first = [13] ∧ second = [10])

theorem chunks_cons_of_ne {unit : UInt16} (other : unit ≠ 13) (rest : Text) :
    chunks (unit :: rest) = [unit] :: chunks rest := by
  rw [chunks]
  intro tail impossible
  exact absurd impossible other

theorem chunks_cons_return {rest : Text} (other : rest.head? ≠ some 10) :
    chunks (13 :: rest) = [13] :: chunks rest := by
  cases rest with
  | nil => rfl
  | cons unit rest =>
      rw [chunks]
      rintro _ - impossible
      obtain ⟨rfl, -⟩ := List.cons.inj impossible
      exact other rfl

@[simp]
theorem chunks_pair (rest : Text) : chunks (13 :: 10 :: rest) = [13, 10] :: chunks rest := by
  rw [chunks]

/-- A property of texts that holds of the empty one and is kept by a chunk in front. -/
theorem chunk_induction {holds : Text → Prop} (nil : holds [])
    (pair : ∀ rest, holds rest → holds (13 :: 10 :: rest))
    (lone : ∀ rest, rest.head? ≠ some 10 → holds rest → holds (13 :: rest))
    (unit : ∀ unit rest, unit ≠ 13 → holds rest → holds (unit :: rest)) (text : Text) :
    holds text := by
  induction length : text.length using Nat.strong_induction_on generalizing text with
  | _ size ih =>
      subst length
      match text with
      | [] => exact nil
      | first :: rest =>
          have shorter : holds rest := ih rest.length (by simp) rest rfl
          by_cases carriage : first = 13
          · subst carriage
            match rest with
            | [] => exact lone [] (by simp) nil
            | second :: rest =>
                by_cases feed : second = 10
                · subst feed
                  exact pair rest (ih rest.length (by simp only [List.length_cons]; omega) rest rfl)
                · exact lone (second :: rest) (by simpa using feed) shorter
          · exact unit first rest carriage shorter

variable (text : Text)

theorem flatten_chunks : (chunks text).flatten = text := by
  induction text using chunk_induction with
  | nil => rfl
  | pair rest ih => rw [chunks_pair, List.flatten_cons, ih]; rfl
  | lone rest other ih => rw [chunks_cons_return other, List.flatten_cons, ih]; rfl
  | unit unit rest other ih => rw [chunks_cons_of_ne other, List.flatten_cons, ih]; rfl

theorem chunkUnit_of_ne {unit : UInt16} (carriage : unit ≠ 13) : chunkUnit [unit] = unit := by
  unfold chunkUnit isEnding
  by_cases feed : unit = 10
  · simp [feed]
  · simp [carriage, feed]

theorem normalizeToLF_eq : normalizeToLF text = (chunks text).map chunkUnit := by
  induction text using chunk_induction with
  | nil => rfl
  | pair rest ih =>
      rw [normalizeToLF, chunks_pair, List.map_cons, ih]
      rfl
  | lone rest other ih =>
      rw [chunks_cons_return other, List.map_cons, ← ih, normalizeToLF]
      · rfl
      · rintro _ rfl
        exact other rfl
  | unit unit rest other ih =>
      rw [chunks_cons_of_ne other, List.map_cons, chunkUnit_of_ne other, ← ih, normalizeToLF]
      · exact fun _ impossible => absurd impossible other
      · exact other

theorem length_normalizeToLF : (normalizeToLF text).length = (chunks text).length := by
  rw [normalizeToLF_eq, List.length_map]

theorem not_mem_normalizeToLF : (13 : UInt16) ∉ normalizeToLF text := by
  induction text using chunk_induction with
  | nil => simp [normalizeToLF]
  | pair rest ih =>
      rw [normalizeToLF]
      simpa using ih
  | lone rest other ih =>
      rw [normalizeToLF]
      · simpa using ih
      · rintro _ rfl
        exact other rfl
  | unit unit rest other ih =>
      rw [normalizeToLF]
      · exact fun member => (List.mem_cons.mp member).elim (fun same => other same.symm) ih
      · exact fun _ impossible => absurd impossible other
      · exact other

theorem lineEndings_eq : lineEndings text = (chunks text).filter isEnding := by
  induction text using chunk_induction with
  | nil => rfl
  | pair rest ih =>
      rw [lineEndings, chunks_pair, ih, List.filter_cons_of_pos (by decide)]
  | lone rest other ih =>
      rw [chunks_cons_return other, List.filter_cons_of_pos (by decide), ← ih, lineEndings]
      rintro _ rfl
      exact other rfl
  | unit unit rest other ih =>
      rw [chunks_cons_of_ne other, List.filter_cons, ← ih]
      by_cases feed : unit = 10
      · subst feed
        rfl
      · rw [if_neg (by simp [isEnding, other, feed]), lineEndings]
        · exact fun _ impossible => absurd impossible other
        · exact other
        · exact feed

theorem isChunk_of_mem_chunks {text chunk : Text} (member : chunk ∈ chunks text) :
    IsChunk chunk := by
  induction text using chunk_induction with
  | nil => simp [chunks] at member
  | pair rest ih =>
      rcases List.mem_cons.mp member with rfl | later
      · exact .inl rfl
      · exact ih later
  | lone rest other ih =>
      rw [chunks_cons_return other] at member
      rcases List.mem_cons.mp member with rfl | later
      · exact .inr ⟨_, rfl⟩
      · exact ih later
  | unit unit rest other ih =>
      rw [chunks_cons_of_ne other] at member
      rcases List.mem_cons.mp member with rfl | later
      · exact .inr ⟨_, rfl⟩
      · exact ih later

theorem head?_chunks {text chunk : Text} (first : (chunks text).head? = some chunk) :
    chunk.head? = text.head? := by
  induction text using chunk_induction with
  | nil => simp [chunks] at first
  | pair rest ih =>
      obtain rfl := Option.some.inj first
      rfl
  | lone rest other ih =>
      rw [chunks_cons_return other] at first
      obtain rfl := Option.some.inj first
      rfl
  | unit unit rest other ih =>
      rw [chunks_cons_of_ne other] at first
      obtain rfl := Option.some.inj first
      rfl

theorem chunks_apart : (chunks text).IsChain Apart := by
  induction text using chunk_induction with
  | nil => exact .nil
  | pair rest ih =>
      rw [chunks_pair, List.isChain_cons]
      exact ⟨fun _ _ both => by simp at both, ih⟩
  | lone rest other ih =>
      rw [chunks_cons_return other, List.isChain_cons]
      refine ⟨fun chunk first both => other ?_, ih⟩
      rw [← head?_chunks first, both.2]
      rfl
  | unit unit rest carriage ih =>
      rw [chunks_cons_of_ne carriage, List.isChain_cons]
      exact ⟨fun _ _ both => carriage (by simpa using both.1), ih⟩

variable {pieces : List Text}

section

variable (each : ∀ chunk ∈ pieces, IsChunk chunk)
include each

/-- Chunks that keep lone returns apart from line feeds are read back. -/
theorem chunks_flatten (apart : pieces.IsChain Apart) : chunks pieces.flatten = pieces := by
  induction pieces with
  | nil => rfl
  | cons chunk rest ih =>
      obtain ⟨first, others⟩ := List.isChain_cons.mp apart
      have later := ih (fun chunk member => each chunk (List.mem_cons_of_mem _ member)) others
      rcases each chunk (by simp) with rfl | ⟨unit, rfl⟩
      · change chunks (13 :: 10 :: rest.flatten) = _
        rw [chunks_pair, later]
      · by_cases carriage : unit = 13
        · subst carriage
          change chunks (13 :: rest.flatten) = _
          rw [chunks_cons_return, later]
          intro feed
          cases rest with
          | nil => simp at feed
          | cons next rest =>
              refine first next rfl ⟨rfl, ?_⟩
              rcases each next (by simp) with rfl | ⟨unit, rfl⟩
              · simp at feed
              · simpa using feed
        · change chunks (unit :: rest.flatten) = _
          rw [chunks_cons_of_ne carriage, later]

theorem length_chunks_flatten_le :
    (chunks pieces.flatten).length ≤ pieces.length ∧
      (¬pieces.IsChain Apart → (chunks pieces.flatten).length < pieces.length) := by
  induction size : pieces.length using Nat.strong_induction_on generalizing pieces with
  | _ size ih =>
      subst size
      match pieces with
      | [] => exact ⟨Nat.le_refl _, fun broken => absurd .nil broken⟩
      | chunk :: rest =>
          have eachRest : ∀ chunk ∈ rest, IsChunk chunk :=
            fun chunk member => each chunk (List.mem_cons_of_mem _ member)
          obtain ⟨bound, strict⟩ := ih rest.length (by simp) eachRest rfl
          have single : (∀ next ∈ rest.head?, Apart chunk next) →
              chunks (chunk :: rest).flatten = chunk :: chunks rest.flatten →
              (chunks (chunk :: rest).flatten).length ≤ (chunk :: rest).length ∧
                (¬(chunk :: rest).IsChain Apart →
                  (chunks (chunk :: rest).flatten).length < (chunk :: rest).length) := by
            intro apart read
            rw [read, List.length_cons, List.length_cons, List.isChain_cons]
            refine ⟨by omega, fun broken => ?_⟩
            have inner := strict fun chain => broken ⟨apart, chain⟩
            omega
          rcases each chunk (by simp) with rfl | ⟨unit, rfl⟩
          · exact single (fun _ _ both => by simp at both) (chunks_pair _)
          · by_cases carriage : unit = 13
            · subst carriage
              by_cases feed : rest.flatten.head? = some 10
              · match rest with
                | [] => simp at feed
                | next :: rest =>
                    obtain rfl : next = [10] := by
                      rcases each next (by simp) with rfl | ⟨unit, rfl⟩
                      · simp at feed
                      · simpa using feed
                    have read : chunks ([13] :: [10] :: rest).flatten =
                        [13, 10] :: chunks rest.flatten := chunks_pair _
                    have eachLater : ∀ chunk ∈ rest, IsChunk chunk :=
                      fun chunk member => eachRest chunk (List.mem_cons_of_mem _ member)
                    have later := (ih rest.length (by simp only [List.length_cons]; omega) eachLater rfl).1
                    rw [read]
                    simp only [List.length_cons]
                    exact ⟨by omega, fun _ => by omega⟩
              · refine single (fun next first both => feed ?_) (chunks_cons_return feed)
                match rest with
                | [] => simp at first
                | next' :: rest =>
                    obtain rfl := Option.some.inj first
                    rw [both.2]
                    rfl
            · exact single (fun _ _ both => carriage (by simpa using both.1))
                (chunks_cons_of_ne carriage _)

/-- Chunks put side by side normalize unit by unit exactly where every lone carriage return is
apart from the line feeds. -/
theorem normalizeToLF_flatten_iff :
    normalizeToLF pieces.flatten = pieces.map chunkUnit ↔ pieces.IsChain Apart := by
  constructor
  · intro same
    by_contra broken
    have shorter := (length_chunks_flatten_le each).2 broken
    have lengths := congrArg List.length same
    rw [length_normalizeToLF, List.length_map] at lengths
    omega
  · intro apart
    rw [normalizeToLF_eq, chunks_flatten each apart]

end

end PiAdaptative.SourceEdits
