import PiAdaptative.Foundations.Patterns
import PiAdaptative.TextProtocol.LiveFilter

/-!
# Envelopes of the text tool protocol

A finished text is searched for the envelopes of four dialects.  Each envelope found covers a span
of the text, and the envelopes of the dialects may nest or overlap.
-/

namespace PiAdaptative.TextProtocol

open Patterns
open Patterns.Pattern

/-- The white space of `\s` and `trim`. -/
def isSpace (unit : UInt16) : Bool :=
  (9 ≤ unit && unit ≤ 13) || (0x2000 ≤ unit && unit ≤ 0x200A) ||
    [32, 0xA0, 0x1680, 0x2028, 0x2029, 0x202F, 0x205F, 0x3000, 0xFEFF].contains unit

/-- The units of `.`. -/
def isLineUnit (unit : UInt16) : Bool := !([10, 13, 0x2028, 0x2029].contains unit)

/-- The units of `\w`. -/
def isWordUnit (unit : UInt16) : Bool :=
  (48 ≤ unit && unit ≤ 57) || (65 ≤ unit && unit ≤ 90) || unit == 95 ||
    (97 ≤ unit && unit ≤ 122)

def isAnyUnit (_ : UInt16) : Bool := true

/-- A unit with a capital Latin letter made small. -/
def smallUnit (unit : UInt16) : UInt16 :=
  if 65 ≤ unit && unit ≤ 90 then unit + 32 else unit

/-- `text.trim()`. -/
def trimText (text : Text) : Text :=
  ((text.dropWhile isSpace).reverse.dropWhile isSpace).reverse

/-- `text.replace(/old/g, replacement)`, with the units of an occurrence still to skip. -/
def replaceAll (old replacement : Text) : Nat → Text → Text
  | _, [] => []
  | skipped + 1, _ :: rest => replaceAll old replacement skipped rest
  | 0, char :: rest =>
      if old.isPrefixOf (char :: rest) then
        replacement ++ replaceAll old replacement (old.length - 1) rest
      else char :: replaceAll old replacement 0 rest

/-- A text with each of some replacements made in turn. -/
def replaceEach (replacements : List (String × String)) (text : Text) : Text :=
  replacements.foldl (fun text pair => replaceAll (units pair.1) (units pair.2) 0 text) text

def unescapeAttribute : Text → Text :=
  replaceEach [("&quot;", "\""), ("&apos;", "'"), ("&lt;", "<"), ("&gt;", ">"), ("&amp;", "&")]

def unescapeXmlText : Text → Text :=
  replaceEach [("&lt;", "<"), ("&gt;", ">"), ("&apos;", "'"), ("&quot;", "\""), ("&amp;", "&")]

/-- The end of the object that a scan is in, with the depth of its braces. -/
def objectEnd : Nat → Nat → Bool → Bool → Text → Option Nat
  | _, _, _, _, [] => none
  | index, depth, true, true, _ :: rest => objectEnd (index + 1) depth true false rest
  | index, depth, true, false, char :: rest =>
      if char = 92 then objectEnd (index + 1) depth true true rest
      else objectEnd (index + 1) depth (char != 34) false rest
  | index, depth, false, _, char :: rest =>
      if char = 34 then objectEnd (index + 1) depth true false rest
      else if char = 123 then objectEnd (index + 1) (depth + 1) false false rest
      else if char = 125 then
        if depth - 1 = 0 then some (index + 1)
        else objectEnd (index + 1) (depth - 1) false false rest
      else objectEnd (index + 1) depth false false rest

def findJsonObjectEnd (text : Text) (start : Nat) : Option Nat :=
  let index := start + runLength text isSpace start
  if text[index]? = some 123 then objectEnd index 0 false false (text.drop index) else none

variable {text : Text}

theorem objectEnd_within {index depth finish : Nat} {inString escaped : Bool}
    (found : objectEnd index depth inString escaped text = some finish) :
    index < finish ∧ finish ≤ index + text.length := by
  induction text generalizing index depth inString escaped with
  | nil => cases inString <;> cases escaped <;> cases found
  | cons char rest ih =>
      have later {depth inString escaped}
          (found : objectEnd (index + 1) depth inString escaped rest = some finish) :
          index < finish ∧ finish ≤ index + (char :: rest).length := by
        have within := ih found
        simp only [List.length_cons]
        omega
      rcases inString with _ | _
      · simp only [objectEnd] at found
        split at found
        · exact later found
        split at found
        · exact later found
        split at found
        · split at found
          · cases found
            simp only [List.length_cons]
            omega
          · exact later found
        · exact later found
      · rcases escaped with _ | _
        · simp only [objectEnd] at found
          split at found <;> exact later found
        · exact later found

theorem findJsonObjectEnd_within {start finish : Nat}
    (found : findJsonObjectEnd text start = some finish) :
    start < finish ∧ finish ≤ text.length := by
  simp only [findJsonObjectEnd] at found
  split at found
  next opens =>
    have within := objectEnd_within found
    rw [List.length_drop] at within
    omega
  · cases found

def fixed (text : String) : Pattern UInt16 := literal (units text)

/-- The pattern of a fixed text whose letters may be of either case. -/
def fixedInAnyCase (text : String) : Pattern UInt16 :=
  sequence ((units text).map fun unit => .unit fun read => smallUnit read == smallUnit unit)

/-- `\s+name=(["'])(.*?)\1\s*>`. -/
def nameAttribute : Pattern UInt16 :=
  sequence [oneOrMore isSpace, fixed "name=", group 1 (unit [34, 39].contains),
    group 2 (many isLineUnit false), again 1, many isSpace true, fixed ">"]

def openPiCallEnvelope : Pattern UInt16 := andThen (fixed ("<" ++ PI_CALL_TAG)) nameAttribute

def closePattern : Pattern UInt16 :=
  sequence [fixed ("</" ++ PI_CALL_TAG), many isSpace true, fixed ">"]

/-- The pattern of a text that opens another `pi:call`. -/
def anotherPiCall : Pattern UInt16 :=
  andThen (fixed ("<" ++ PI_CALL_TAG)) (boundary isWordUnit)

def toolCallEnvelope : Pattern UInt16 :=
  sequence [fixed ("<" ++ TOOL_CALL_TAG ++ ">"), group 1 (many isAnyUnit false),
    fixed ("</" ++ TOOL_CALL_TAG ++ ">")]

def anyLabel : List String → Pattern UInt16
  | [] => nothing
  | [label] => fixedInAnyCase label
  | label :: more => orElse (fixedInAnyCase label) (anyLabel more)

def fence : Pattern UInt16 :=
  sequence [fixed "```", anyLabel FENCED_JSON_LABELS, many isSpace true, unit (· == 10),
    group 1 (many isAnyUnit false), optional (unit (· == 10)), fixed "```"]

def functionEnvelope : Pattern UInt16 :=
  sequence [fixed ("<" ++ FUNCTION_TAG), nameAttribute, group 3 (many isAnyUnit false),
    fixed ("</" ++ FUNCTION_TAG), many isSpace true, fixed ">"]

inductive EnvelopeKind where
  | pi_call
  | tool_call
  | fenced_json
  | function_xml
  deriving DecidableEq

/-- `EnvelopeMatch`, whose `end` is its finish. -/
structure EnvelopeMatch where
  kind : EnvelopeKind
  start : Nat
  finish : Nat
  name : Option Text
  body : Text
  deriving DecidableEq

def isInsideMatch (index : Nat) (envelopes : List EnvelopeMatch) : Bool :=
  envelopes.any fun envelope => envelope.start ≤ index && index < envelope.finish

/-- The end of a `pi:call` that was opened, if it may be read as that. -/
def piCallClose (text : Text) (bodyStart : Nat) (jsonEnd : Option Nat) : Option (Match UInt16) :=
  let searched := jsonEnd.getD bodyStart
  (exec closePattern text searched).bind fun close =>
    let textBeforeClose := slice text searched close.index
    let closes := match jsonEnd with
      | some _ => trimText textBeforeClose == []
      | none => (exec anotherPiCall textBeforeClose 0).isNone
    if closes then some close else none

/-- The envelope of a `pi:call` that was opened. -/
def piCallEnvelope (text : Text) (opened : Match UInt16) : Option EnvelopeMatch :=
  let bodyStart := opened.finish
  let jsonEnd := findJsonObjectEnd text bodyStart
  let closeMatch := piCallClose text bodyStart jsonEnd
  ((closeMatch.map (·.index)).or jsonEnd).map fun bodyEnd => {
    kind := .pi_call
    start := opened.index
    finish := (closeMatch.map (·.finish)).getD bodyEnd
    name := some (unescapeAttribute (opened.groups 2))
    body := slice text bodyStart bodyEnd }

/-- The envelopes found so far, and that of a further `pi:call`. -/
def withPiCall (text : Text) (envelopes : List EnvelopeMatch) (opened : Match UInt16) :
    List EnvelopeMatch :=
  if isInsideMatch opened.index envelopes then envelopes
  else envelopes ++ (piCallEnvelope text opened).toList

def matchedEnvelope (kind : EnvelopeKind) (name : Match UInt16 → Option Text) (bodySlot : Nat)
    (found : Match UInt16) : EnvelopeMatch where
  kind := kind
  start := found.index
  finish := found.finish
  name := name found
  body := found.groups bodySlot

/-- The envelopes in the order in which they are found. -/
def unsortedEnvelopes (text : Text) : List EnvelopeMatch :=
  (matchAll openPiCallEnvelope text).foldl (withPiCall text) [] ++
    (matchAll toolCallEnvelope text).map (matchedEnvelope .tool_call (fun _ => none) 1) ++
    (matchAll fence text).map (matchedEnvelope .fenced_json (fun _ => none) 1) ++
    (matchAll functionEnvelope text).map
      (matchedEnvelope .function_xml (fun found => some (unescapeAttribute (found.groups 2))) 3)

def findToolEnvelopes (text : Text) : List EnvelopeMatch :=
  (unsortedEnvelopes text).mergeSort fun first second => first.start ≤ second.start

/-- An envelope covers a part of a text that is not empty. -/
def EnvelopeMatch.Within (text : Text) (envelope : EnvelopeMatch) : Prop :=
  envelope.start < envelope.finish ∧ envelope.finish ≤ text.length

theorem piCallClose_within {bodyStart : Nat} {jsonEnd : Option Nat} {close : Match UInt16}
    (closed : piCallClose text bodyStart jsonEnd = some close) :
    jsonEnd.getD bodyStart ≤ close.index ∧ close.index ≤ close.finish ∧
      close.finish ≤ text.length := by
  obtain ⟨candidate, found, kept⟩ := Option.bind_eq_some_iff.mp closed
  have same : candidate = close := by
    split at kept <;> simp_all
  subst same
  have within := exec_within found
  exact ⟨within.1, by omega, within.2.2.2⟩

variable {envelope : EnvelopeMatch}

theorem piCallEnvelope_within {opened : Match UInt16} (nonempty : opened.index < opened.finish)
    (found : piCallEnvelope text opened = some envelope) : envelope.Within text := by
  obtain ⟨bodyEnd, ends, rfl⟩ := Option.map_eq_some_iff.mp found
  have after : opened.finish ≤ (findJsonObjectEnd text opened.finish).getD opened.finish := by
    cases json : findJsonObjectEnd text opened.finish with
    | none => exact Nat.le_refl _
    | some jsonEnd => exact (findJsonObjectEnd_within json).1.le
  cases closed : piCallClose text opened.finish (findJsonObjectEnd text opened.finish) with
  | none =>
      simp only [closed, Option.map_none, Option.none_or] at ends
      have within := findJsonObjectEnd_within ends
      simp only [EnvelopeMatch.Within, Option.map_none, Option.getD_none]
      omega
  | some close =>
      have within := piCallClose_within closed
      simp only [EnvelopeMatch.Within, Option.map_some, Option.getD_some]
      omega

theorem foldl_withPiCall_within {opened : List (Match UInt16)} {envelopes : List EnvelopeMatch}
    (nonempty : ∀ found ∈ opened, found.index < found.finish)
    (within : ∀ envelope ∈ envelopes, envelope.Within text) :
    ∀ envelope ∈ opened.foldl (withPiCall text) envelopes, envelope.Within text := by
  induction opened generalizing envelopes with
  | nil => exact within
  | cons first more ih =>
      refine ih (fun found mem => nonempty found (List.mem_cons_of_mem first mem)) ?_
      intro envelope mem
      simp only [withPiCall] at mem
      split at mem
      · exact within envelope mem
      · rcases List.mem_append.mp mem with mem | mem
        · exact within envelope mem
        · exact piCallEnvelope_within (nonempty first List.mem_cons_self)
            (Option.mem_toList.mp mem)

variable {pattern : Pattern UInt16}

theorem matchAll_nonempty (reads : 0 < pattern.least) {found : Match UInt16}
    (mem : found ∈ matchAll pattern text) :
    found.index < found.finish ∧ found.finish ≤ text.length := by
  have within := matchesFrom_within mem
  omega

theorem matchedEnvelope_within {kind : EnvelopeKind} {name : Match UInt16 → Option Text}
    {bodySlot : Nat} (reads : 0 < pattern.least)
    (mem : envelope ∈ (matchAll pattern text).map (matchedEnvelope kind name bodySlot)) :
    envelope.Within text := by
  obtain ⟨found, memFound, rfl⟩ := List.mem_map.mp mem
  exact matchAll_nonempty reads memFound

/-- Every envelope that is found covers a part of the text. -/
theorem findToolEnvelopes_within (mem : envelope ∈ findToolEnvelopes text) :
    envelope.Within text := by
  have found := (List.mergeSort_perm _ _).mem_iff.mp mem
  simp only [unsortedEnvelopes, List.mem_append] at found
  rcases found with ((found | found) | found) | found
  · refine foldl_withPiCall_within ?_ (fun _ mem => absurd mem List.not_mem_nil) envelope found
    exact fun opened memOpened => (matchAll_nonempty (by decide +kernel) memOpened).1
  · exact matchedEnvelope_within (by decide +kernel) found
  · exact matchedEnvelope_within (by decide +kernel) found
  · exact matchedEnvelope_within (by decide +kernel) found

end PiAdaptative.TextProtocol
