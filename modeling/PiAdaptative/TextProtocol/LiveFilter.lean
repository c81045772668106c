import PiAdaptative.Foundations.Delimiters
import Mathlib.Tactic.Common

/-!
# The live filter of the text tool protocol

While a model streams a text, calls that are written as envelopes are kept from the reader.  The
filter takes the text delta by delta, shows prose and holds back an end that may still grow into an
opener.
-/

namespace PiAdaptative.TextProtocol

/-- A text as its UTF-16 code units. -/
abbrev Text := List UInt16

/-- The code units of a text in ASCII. -/
def units (text : String) : Text := text.toList.map fun unit => unit.toNat.toUInt16

structure TextToolProtocolEnvelopeDelimiter where
  opener : Text
  closer : Text
  deriving DecidableEq

def PI_CALL_TAG : String := "pi:call"

def TOOL_CALL_TAG : String := "tool_call"

def FUNCTION_TAG : String := "function"

def FENCED_JSON_LABELS : List String := ["tool_call", "tool", "json"]

def tagDelimiter (tag : String) : TextToolProtocolEnvelopeDelimiter where
  opener := units ("<" ++ tag)
  closer := units ("</" ++ tag ++ ">")

def TEXT_TOOL_PROTOCOL_ENVELOPE_DELIMITERS : List TextToolProtocolEnvelopeDelimiter :=
  [tagDelimiter PI_CALL_TAG, tagDelimiter TOOL_CALL_TAG] ++
    FENCED_JSON_LABELS.map (fun label => {
      opener := units ("```" ++ label)
      closer := units "```" }) ++
    [tagDelimiter FUNCTION_TAG]

open Delimiters

def TEXT_PROTOCOL_ENVELOPE_TRIGGER (text : Text) : Bool :=
  text.any fun unit => unit == 60 || unit == 96

/-- One step of the search for the earliest opener. -/
def earlierOpener (text : Text) (best : Option (Nat × TextToolProtocolEnvelopeDelimiter))
    (pattern : TextToolProtocolEnvelopeDelimiter) :
    Option (Nat × TextToolProtocolEnvelopeDelimiter) :=
  match indexOf pattern.opener text with
  | none => best
  | some index =>
      match best with
      | none => some (index, pattern)
      | some known => if index < known.1 then some (index, pattern) else some known

def findEarliestEnvelopeOpener (text : Text) : Option (Nat × TextToolProtocolEnvelopeDelimiter) :=
  TEXT_TOOL_PROTOCOL_ENVELOPE_DELIMITERS.foldl (earlierOpener text) none

def longestPendingOpenerPrefixLength (text : Text) : Nat :=
  TEXT_TOOL_PROTOCOL_ENVELOPE_DELIMITERS.foldl
    (fun longest pattern => max longest (heldLength pattern.opener text)) 0

def longestPendingCloserPrefixLength (text closer : Text) : Nat := heldLength closer text

/-- What one `consume` leaves. -/
structure Drained where
  visible : Text
  closer : Option Text
  pending : Text
  completed : Nat
  deriving DecidableEq

variable {pattern : TextToolProtocolEnvelopeDelimiter}

theorem earlierOpener_mem {text : Text} {patterns : List TextToolProtocolEnvelopeDelimiter}
    {best : Option (Nat × TextToolProtocolEnvelopeDelimiter)} {index : Nat}
    (found : patterns.foldl (earlierOpener text) best = some (index, pattern)) :
    best = some (index, pattern) ∨
      (pattern ∈ patterns ∧ indexOf pattern.opener text = some index) := by
  induction patterns generalizing best with
  | nil => exact .inl found
  | cons first patterns ih =>
      rcases ih found with known | ⟨member, index⟩
      · unfold earlierOpener at known
        split at known
        · exact .inl known
        next other occurs =>
          split at known
          · cases known
            exact .inr ⟨List.mem_cons_self, occurs⟩
          · split at known
            · cases known
              exact .inr ⟨List.mem_cons_self, occurs⟩
            · exact .inl known
      · exact .inr ⟨List.mem_cons_of_mem _ member, index⟩

theorem findEarliestEnvelopeOpener_mem {text : Text} {index : Nat}
    (found : findEarliestEnvelopeOpener text = some (index, pattern)) :
    pattern ∈ TEXT_TOOL_PROTOCOL_ENVELOPE_DELIMITERS ∧
      indexOf pattern.opener text = some index :=
  (earlierOpener_mem found).resolve_left nofun

/-- Every opener and every closer has units. -/
theorem delimiters_nonempty : ∀ pattern ∈ TEXT_TOOL_PROTOCOL_ENVELOPE_DELIMITERS,
    pattern.opener ≠ [] ∧ pattern.closer ≠ [] := by
  decide +kernel

/-- The loop of `consume`. -/
def drain (closer : Option Text) (pending : Text) : Drained :=
  if pending = [] then {
    visible := []
    closer
    pending := []
    completed := 0 }
  else
    match closer with
    | some closer =>
        match indexOf closer pending with
        | none => {
            visible := []
            closer := some closer
            pending :=
              pending.drop (pending.length - longestPendingCloserPrefixLength pending closer)
            completed := 0 }
        | some index =>
            let rest := drain none (pending.drop (index + closer.length))
            { rest with completed := rest.completed + 1 }
    | none =>
        if TEXT_PROTOCOL_ENVELOPE_TRIGGER pending = false then {
          visible := pending
          closer := none
          pending := []
          completed := 0 }
        else
          match _found : findEarliestEnvelopeOpener pending with
          | none =>
              let visibleEnd := pending.length - longestPendingOpenerPrefixLength pending
              { visible := pending.take visibleEnd
                closer := none
                pending := pending.drop visibleEnd
                completed := 0 }
          | some (index, pattern) =>
              let rest := drain (some pattern.closer)
                (pending.drop (index + pattern.opener.length))
              { rest with visible := pending.take index ++ rest.visible }
termination_by (pending.length, if closer.isSome then 1 else 0)
decreasing_by
  · simp only [List.length_drop, Option.isSome_some, Option.isSome_none, if_true,
      Bool.false_eq_true, if_false]
    rcases Nat.eq_zero_or_pos (index + closer.length) with zero | positive
    · rw [zero]
      exact Prod.Lex.right _ Nat.zero_lt_one
    · have := List.length_pos_iff.mpr ‹¬pending = []›
      exact Prod.Lex.left _ _ (by omega)
  · have := List.length_pos_iff.mpr ‹¬pending = []›
    have := List.length_pos_iff.mpr
      (delimiters_nonempty pattern (findEarliestEnvelopeOpener_mem _found).1).1
    rw [List.length_drop]
    exact Prod.Lex.left _ _ (by omega)

structure TextProtocolLiveFilter where
  pending : Text
  closer : Option Text
  rawLength : Nat
  visibleText : Text
  completedEnvelopes : Nat
  deriving DecidableEq

namespace TextProtocolLiveFilter

def new : TextProtocolLiveFilter where
  pending := []
  closer := none
  rawLength := 0
  visibleText := []
  completedEnvelopes := 0

def visible (filter : TextProtocolLiveFilter) : Text := filter.visibleText

def completedEnvelopeCount (filter : TextProtocolLiveFilter) : Nat := filter.completedEnvelopes

def consume (filter : TextProtocolLiveFilter) (chunk : Text) : TextProtocolLiveFilter :=
  if chunk.length = 0 then filter
  else
    let drained := drain filter.closer (filter.pending ++ chunk)
    { filter with
      pending := drained.pending
      closer := drained.closer
      visibleText := filter.visibleText ++ drained.visible
      completedEnvelopes := filter.completedEnvelopes + drained.completed }

def advance (filter : TextProtocolLiveFilter) (delta : Text) : TextProtocolLiveFilter :=
  { filter with rawLength := filter.rawLength + delta.length }.consume delta

def rebuild (fullText : Text) : TextProtocolLiveFilter :=
  { new with rawLength := fullText.length }.consume fullText

def finish (filter : TextProtocolLiveFilter) (fullText : Text) : TextProtocolLiveFilter :=
  if fullText.length ≠ filter.rawLength then rebuild fullText else filter

end TextProtocolLiveFilter

end PiAdaptative.TextProtocol
